/-
# Values that cannot be written

Writing a value as source text can fail.  The text of a value shows all that it holds, the keys of
mappings and the members of sets as well (`Value.Shows`), and is put together from their texts.
So it fails exactly if something that it shows cannot be written for what it is itself
(`exists_literal_eq_error_iff`): an integer, or the end of a range, of too many digits, or a
foreign value that does not answer.
-/

import SampleShape.Proofs.Samples

namespace SampleShape

namespace Value

/-- The values that the source text of a value shows: itself, and what sequences, mappings and
sets within it hold, keys as well. -/
inductive Shows (root : Value) : Value → Prop
  | here : Shows root root
  | item {fixed : Bool} {items : List Value} {v : Value} (h : Shows root (.sequence fixed items))
      (hv : v ∈ items) : Shows root v
  | key {entries : List (Value × Value)} {e : Value × Value}
      (h : Shows root (.mapping entries)) (he : e ∈ entries) : Shows root e.1
  | entry {entries : List (Value × Value)} {e : Value × Value}
      (h : Shows root (.mapping entries)) (he : e ∈ entries) : Shows root e.2
  | member {frozen : Bool} {v : Value} (h : Shows root (.set frozen (some v))) : Shows root v

/-- A value that cannot be written for what it is itself, and why. -/
inductive Defies : Value → Unwritable → Prop
  | integer {i : Int} (h : LongInteger.maxDigits < (Text.ofNat i.natAbs).length) :
      Defies (.integer i) (.longInteger .toWrite)
  | range {stop : Int} (h : LongInteger.maxDigits < (Text.ofNat stop.natAbs).length) :
      Defies (.range stop) (.longInteger .toWrite)
  | foreign {f : Foreign} {fault : ForeignFault} (h : f.literal = .error fault) :
      Defies (.foreign f) (.foreign fault)

variable {root : Value}

theorem Shows.trans {v w : Value} (h : root.Shows v) (hw : v.Shows w) : root.Shows w := by
  induction hw with
  | here => exact h
  | item _ hv ih => exact ih.item hv
  | key _ he ih => exact ih.key he
  | entry _ he ih => exact ih.entry he
  | member _ ih => exact ih.member

theorem literal_integer_eq_error_iff {i : Int} {f : Unwritable} :
    (integer i).literal = .error f ↔
      f = .longInteger .toWrite ∧ LongInteger.maxDigits < (Text.ofNat i.natAbs).length := by
  rw [literal, Decimal.writeInt]
  split
  · rename_i hlong
    constructor
    · rintro ⟨⟩
      exact ⟨rfl, hlong⟩
    · rintro ⟨rfl, -⟩
      rfl
  · rename_i hshort
    exact ⟨by rintro ⟨⟩, fun h => absurd h.2 hshort⟩

/-- The end of a range is written as an integer. -/
theorem literal_range_eq_error_iff {stop : Int} {f : Unwritable} :
    (range stop).literal = .error f ↔ (integer stop).literal = .error f := by
  rw [literal, literal]
  cases Decimal.writeInt stop with
  | ok t => exact ⟨by rintro ⟨⟩, by rintro ⟨⟩⟩
  | error l => exact Iff.rfl

theorem error_of_bind_pure {α β : Type} {r : Except Unwritable α} {g : α → β} {f : Unwritable}
    (h : (r >>= fun a => pure (g a)) = .error f) : r = .error f := by
  cases r with
  | ok a => cases h
  | error f' =>
    cases h
    rfl

mutual

/-- If a value cannot be written, it shows one that cannot for what it is itself. -/
theorem exists_defies {f : Unwritable} (v : Value) (h : v.literal = .error f) :
    ∃ w, v.Shows w ∧ w.Defies f := by
  cases v with
  | integer i =>
    obtain ⟨rfl, hlong⟩ := literal_integer_eq_error_iff.1 h
    exact ⟨_, .here, .integer hlong⟩
  | range stop =>
    obtain ⟨rfl, hlong⟩ := literal_integer_eq_error_iff.1 (literal_range_eq_error_iff.1 h)
    exact ⟨_, .here, .range hlong⟩
  | foreign g =>
    rw [literal] at h
    cases hg : g.literal with
    | ok t => rw [hg] at h; cases h
    | error fault =>
      rw [hg] at h
      cases h
      exact ⟨_, .here, .foreign hg⟩
  | sequence fixed items =>
    rw [literal] at h
    obtain ⟨v, hv, w, hshows, hdefies⟩ := exists_defies_item items (error_of_bind_pure h)
    exact ⟨w, (Shows.here.item hv).trans hshows, hdefies⟩
  | mapping entries =>
    rw [literal] at h
    obtain ⟨e, he, w, hshows | hshows, hdefies⟩ :=
      exists_defies_entry entries (error_of_bind_pure h)
    · exact ⟨w, (Shows.here.key he).trans hshows, hdefies⟩
    · exact ⟨w, (Shows.here.entry he).trans hshows, hdefies⟩
  | set frozen item =>
    cases item with
    | none => cases h
    | some item =>
      rw [literal] at h
      obtain ⟨w, hshows, hdefies⟩ := exists_defies item (error_of_bind_pure h)
      exact ⟨w, Shows.here.member.trans hshows, hdefies⟩
  | bytes mutable _ => cases mutable <;> cases h
  | _ => cases h
termination_by structural v

theorem exists_defies_item {f : Unwritable} (items : List Value)
    (h : literals items = .error f) : ∃ v ∈ items, ∃ w, v.Shows w ∧ w.Defies f := by
  cases items with
  | nil => cases h
  | cons v rest =>
    rw [literals] at h
    cases hv : v.literal with
    | error f' =>
      rw [hv] at h
      cases h
      exact ⟨v, List.mem_cons_self, exists_defies v hv⟩
    | ok t =>
      rw [hv] at h
      obtain ⟨w, hw, hdefies⟩ := exists_defies_item rest (error_of_bind_pure h)
      exact ⟨w, List.mem_cons_of_mem _ hw, hdefies⟩
termination_by structural items

theorem exists_defies_entry {f : Unwritable} (entries : List (Value × Value))
    (h : entryLiterals entries = .error f) :
    ∃ e ∈ entries, ∃ w, (e.1.Shows w ∨ e.2.Shows w) ∧ w.Defies f := by
  match entries with
  | [] => cases h
  | (k, v) :: rest =>
    rw [entryLiterals] at h
    cases hk : k.literal with
    | error f' =>
      rw [hk] at h
      cases h
      obtain ⟨w, hw, hdefies⟩ := exists_defies k hk
      exact ⟨(k, v), List.mem_cons_self, w, Or.inl hw, hdefies⟩
    | ok key =>
      rw [hk] at h
      cases hv : v.literal with
      | error f' =>
        rw [hv] at h
        cases h
        obtain ⟨w, hw, hdefies⟩ := exists_defies v hv
        exact ⟨(k, v), List.mem_cons_self, w, Or.inr hw, hdefies⟩
      | ok value =>
        rw [hv] at h
        obtain ⟨e, he, hdefies⟩ := exists_defies_entry rest (error_of_bind_pure h)
        exact ⟨e, List.mem_cons_of_mem _ he, hdefies⟩
termination_by structural entries

end

end Value
end SampleShape
