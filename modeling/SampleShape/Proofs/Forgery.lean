/-
# What keys can make of a declaration

The names in an inferred shape are the keys of the samples, and the placeholder's own
(`named_infer`).  The declaration holds them as they are, so a key can look like the text
around it.  A key with a separator and a line break behind it reads as two fields, and a
key that ends in `?` as an optional field (`keys_forge_structure`).

No other key can do so: samples whose keys are harmless and whose declarations are the same
have equivalent shapes (`equiv_of_inferDeclaration_eq`), though keys may hold colons,
braces, tabs, line breaks and whatever else.
-/

import SampleShape.Proofs.Observations
import SampleShape.Proofs.Verbatim

namespace SampleShape
namespace Value

/-- Whether a text is a key of a value, or of a value inside it. -/
inductive HasKey (k : Text) : Value → Prop
  | here {entries : List (Value × Value)} {v : Value} (h : (.text k, v) ∈ entries) :
      HasKey k (.mapping entries)
  | entry {entries : List (Value × Value)} {e : Value × Value} (he : e ∈ entries)
      (h : HasKey k e.2) : HasKey k (.mapping entries)
  | item {fixed : Bool} {items : List Value} {v : Value} (hv : v ∈ items) (h : HasKey k v) :
      HasKey k (.sequence fixed items)

end Value

namespace Shape

/-! ### The names in an inferred shape -/

variable {P : Text → Prop}

theorem named_leaf (l : Leaf) : Everywhere (NamedHere P) (leaf l) := .intro nofun nofun nofun

theorem named_form (hany : P anyKey) {holes : Prop} {v : Value} (h : v.Supported holes)
    (hkeys : ∀ k, v.HasKey k → P k) : Everywhere (NamedHere P) v.form := by
  refine Everywhere.form_of (q := fun w => ∀ k, w.HasKey k → P k) nofun (fun w hw hkeys => ?_)
    (fun hkeys w hw k hk => hkeys k (.item hw hk)) (fun hkeys e he k hk => hkeys k (.entry he hk))
    h hkeys
  cases hw with
  | undefined | null | boolean | integer | real | text => exact nofun
  | sequence fixed h =>
    rw [Value.form_sequence fixed h]
    exact nofun
  | mapping hn h =>
    rw [Value.form_mapping h]
    rintro _ ⟨rfl⟩ k hk
    split at hk
    · obtain rfl : k = anyKey := List.mem_singleton.1 hk
      exact hany
    · obtain ⟨f, hf, rfl⟩ := List.mem_map.1 hk
      obtain ⟨e, he, rfl⟩ := List.mem_map.1 hf
      exact hkeys e.1 (.here (v := e.2) (List.mem_map.2 ⟨e, he, rfl⟩))

theorem named_join {a b : Shape} (ha : Everywhere (NamedHere P) a)
    (hb : Everywhere (NamedHere P) b) : Everywhere (NamedHere P) (a.join b) := by
  refine Everywhere.join (fun s hs => ?_) (named_leaf .unknown).here ?_ ha hb
  · rw [NamedHere, withLeaf_fields]
    exact hs
  · intro a b ha hb h hs heq k hk
    rw [join_of_not_equiv h] at heq
    rcases joinContent_eq_some.1 heq with ⟨fs, gs, hfs, hgs, rfl⟩ | ⟨hfs, -⟩ | ⟨-, hgs⟩
    · rcases mem_names_joinFields.1 hk with hk | hk
      · exact ha.here fs hfs k hk
      · exact hb.here gs hgs k hk
    · exact ha.here hs hfs k hk
    · exact hb.here hs hgs k hk

theorem named_normalize {s : Shape} (h : Everywhere (NamedHere P) s) :
    Everywhere (NamedHere P) s.normalize := by
  refine h.normalize (named_leaf .unknown).here fun s hs hd gs hgs k hk => ?_
  rw [normalize_eq hd] at hgs
  obtain ⟨fs, hfs, rfl⟩ := Option.map_eq_some_iff.1 hgs
  rw [names_map] at hk
  exact hs.here fs hfs k hk

/-- **The names in an inferred shape are keys of the samples,** or the one that stands for
all. -/
theorem named_infer (hany : P anyKey) {holes : Prop} {samples : List Value} (hne : samples ≠ [])
    (h : ∀ v ∈ samples, v.Supported holes) (hkeys : ∀ v ∈ samples, ∀ k, v.HasKey k → P k)
    {s : Shape} (hs : infer samples = .ok s) : Everywhere (NamedHere P) s := by
  obtain ⟨v, rest, rfl⟩ := List.exists_cons_of_ne_nil hne
  obtain rfl := Except.ok.inj ((infer_eq h).symm.trans hs)
  refine named_normalize (joinAll_form_of_forall (fun _ _ => named_join) fun w hw => ?_)
  exact named_form hany (h w hw) (hkeys w hw)

/-! ### Declarations -/

theorem inferDeclaration_eq {samples : List Value} {s : Shape} (h : infer samples = .ok s)
    (style : Style) : inferDeclaration style samples = .ok (s.declaration style) := by
  rw [inferDeclaration, h]
  rfl

theorem render_eq_of_declaration_eq {s t : Shape} (h : s.declaration {} = t.declaration {}) :
    s.render {} 1 = t.render {} 1 := by
  have htext : ∀ s : Shape, s.declaration {} =
      ("export type Data = " : Text) ++ (s.render {} 1 ++ (";" : Text)) := by
    intro s
    simp only [declaration, Text.concat, List.flatten_cons, List.flatten_nil, List.append_nil]
    rfl
  rw [htext, htext] at h
  exact List.append_cancel_right (List.append_cancel_left h)

/-- **Harmless keys forge no structure.**  Where the keys of two lists of samples are
harmless and both have the same declaration, their inferred shapes are equivalent. -/
theorem equiv_of_inferDeclaration_eq {samples others : List Value} (hne : samples ≠ [])
    (hne' : others ≠ []) (h : ∀ v ∈ samples, v.IsJson) (h' : ∀ v ∈ others, v.IsJson)
    (hkeys : ∀ v ∈ samples, ∀ k, v.HasKey k → Mark.IsHarmless k)
    (hkeys' : ∀ v ∈ others, ∀ k, v.HasKey k → Mark.IsHarmless k) :
    ∃ s t, infer samples = .ok s ∧ infer others = .ok t ∧
      (inferDeclaration {} samples = inferDeclaration {} others → s.equiv t = true) := by
  have hany : Mark.IsHarmless anyKey := by decide
  obtain ⟨s, hs, hvalid, hunmixed⟩ := unmixed_infer hne h
  obtain ⟨t, ht, hvalid', hunmixed'⟩ := unmixed_infer hne' h'
  refine ⟨s, t, hs, ht, fun heq => ?_⟩
  rw [inferDeclaration_eq hs, inferDeclaration_eq ht] at heq
  exact equiv_of_render_eq hvalid.formed hvalid'.formed (named_infer hany hne h hkeys hs)
    (named_infer hany hne' h' hkeys' ht) hunmixed hunmixed'
    (render_eq_of_declaration_eq (Except.ok.inj heq))

/-- A mapping with a separator in one key, and a tab, a brace and a line break in the
other. -/
def oddKeys (i : Int) : Value :=
  .mapping [(.text "a : b", .integer i), (.text "\t\x7b\ny", .sequence false [.null])]

theorem isJson_oddKeys (i : Int) : (oddKeys i).IsJson := by
  have hnull : (Value.sequence false [.null]).IsJson :=
    .sequence false (List.forall_mem_singleton.2 .null)
  have hkeys : List.Nodup (["a : b", "\t\x7b\ny"] : List Text) := by decide
  exact @Value.Supported.mapping _ [("a : b", .integer i), ("\t\x7b\ny", .sequence false [.null])]
    hkeys (List.forall_mem_cons.2 ⟨.integer i, List.forall_mem_singleton.2 hnull⟩)

theorem isHarmless_oddKeys (i : Int) : ∀ k, (oddKeys i).HasKey k → Mark.IsHarmless k := by
  have hkeys : ∀ k ∈ (["a : b", "\t\x7b\ny"] : List Text), Mark.IsHarmless k := by decide
  intro k hk
  cases hk with
  | here h =>
    refine hkeys k ?_
    simp only [List.mem_cons, Prod.mk.injEq, Value.text.injEq, List.not_mem_nil, or_false] at h ⊢
    exact h.imp And.left And.left
  | entry he h =>
    rcases List.mem_cons.1 he with rfl | he
    · cases h
    · obtain rfl := List.mem_singleton.1 he
      cases h with
      | item hv h =>
        obtain rfl := List.mem_singleton.1 hv
        cases h

theorem equiv_of_inferDeclaration_eq_oddKeys :
    (∀ v ∈ [oddKeys 1], v.IsJson) ∧ (∀ v ∈ [oddKeys 2, oddKeys 3], v.IsJson) ∧
    (∀ v ∈ [oddKeys 1], ∀ k, v.HasKey k → Mark.IsHarmless k) ∧
    (∀ v ∈ [oddKeys 2, oddKeys 3], ∀ k, v.HasKey k → Mark.IsHarmless k) ∧
    inferDeclaration {} [oddKeys 1] = inferDeclaration {} [oddKeys 2, oddKeys 3] ∧
    ∃ s t, infer [oddKeys 1] = .ok s ∧ infer [oddKeys 2, oddKeys 3] = .ok t ∧
      s.equiv t = true := by
  have hjson : ∀ v ∈ [oddKeys 1], v.IsJson := List.forall_mem_singleton.2 (isJson_oddKeys 1)
  have hjson' : ∀ v ∈ [oddKeys 2, oddKeys 3], v.IsJson :=
    List.forall_mem_cons.2 ⟨isJson_oddKeys 2, List.forall_mem_singleton.2 (isJson_oddKeys 3)⟩
  have hkeys : ∀ v ∈ [oddKeys 1], ∀ k, v.HasKey k → Mark.IsHarmless k :=
    List.forall_mem_singleton.2 (isHarmless_oddKeys 1)
  have hkeys' : ∀ v ∈ [oddKeys 2, oddKeys 3], ∀ k, v.HasKey k → Mark.IsHarmless k :=
    List.forall_mem_cons.2
      ⟨isHarmless_oddKeys 2, List.forall_mem_singleton.2 (isHarmless_oddKeys 3)⟩
  have hsame : inferDeclaration {} [oddKeys 1] = inferDeclaration {} [oddKeys 2, oddKeys 3] := rfl
  obtain ⟨s, t, hs, ht, hequiv⟩ := equiv_of_inferDeclaration_eq (List.cons_ne_nil _ _)
    (List.cons_ne_nil _ _) hjson hjson' hkeys hkeys'
  exact ⟨hjson, hjson', hkeys, hkeys', hsame, s, t, hs, ht, hequiv hsame⟩

/-- Whether two lists of samples have one declaration, and shapes that are not
equivalent. -/
def Forges (samples others : List Value) : Prop :=
  (∀ v ∈ samples, v.IsJson) ∧ (∀ v ∈ others, v.IsJson) ∧
    inferDeclaration {} samples = inferDeclaration {} others ∧
    ∃ s t, infer samples = .ok s ∧ infer others = .ok t ∧ s.equiv t = false

/-- **Keys can forge structure.**  A key with a line break behind a separator reads as two
fields, and a key that ends in `?` as one that some sample lacks. -/
theorem keys_forge_structure :
    Forges [.mapping [(.text "a : number,\n\tb", .integer 1)]]
        [.mapping [(.text "a", .integer 1), (.text "b", .integer 1)]] ∧
      Forges [.mapping [(.text "b", .integer 1), (.text "a?", .integer 1)]]
        [.mapping [(.text "a", .integer 1), (.text "b", .integer 1)],
          .mapping [(.text "b", .integer 1)]] := by
  have hone : ∀ k : Text, (Value.mapping [(.text k, .integer 1)]).IsJson :=
    fun k => Value.Supported.singleton (.integer 1) k
  have htwo : ∀ k l : Text, k ≠ l →
      (Value.mapping [(.text k, .integer 1), (.text l, .integer 1)]).IsJson := by
    intro k l hne
    exact @Value.Supported.mapping _ [(k, .integer 1), (l, .integer 1)] (by simpa using hne)
      (List.forall_mem_cons.2 ⟨.integer 1, List.forall_mem_singleton.2 (.integer 1)⟩)
  constructor
  · exact ⟨List.forall_mem_singleton.2 (hone _),
      List.forall_mem_singleton.2 (htwo _ _ (by decide)), rfl, _, _, rfl, rfl, by decide⟩
  · refine ⟨List.forall_mem_singleton.2 (htwo _ _ (by decide)), ?_, rfl, _, _, rfl, rfl, by decide⟩
    exact List.forall_mem_cons.2 ⟨htwo _ _ (by decide), List.forall_mem_singleton.2 (hone _)⟩

end Shape
end SampleShape
