/-
# Samples that have a shape

A sample is supported when it is made of texts, numbers, booleans, null, sequences
and mappings whose keys are distinct texts; `holes` says whether `undefined` may
occur in it.  Without holes these are the values of JSON.

A supported sample has a shape, and the same one at every path (`Supported.shape_eq`).
So inference of a list of supported samples succeeds, and its result is the normal
form of the join of their shapes (`observed_eq`, `infer_eq`).
-/

import Mathlib.Data.List.Nodup
import SampleShape.Inference

namespace SampleShape
namespace Value

theorem exists_of_bind_eq_ok {ε α β : Type} {r : Except ε α} {f : α → Except ε β} {b : β}
    (h : r >>= f = .ok b) : ∃ a, r = .ok a ∧ f a = .ok b := by
  cases r with
  | error e => cases h
  | ok a => exact ⟨a, rfl, h⟩

/-- The values that have a shape.  The keys of a mapping are distinct texts. -/
inductive Supported (holes : Prop) : Value → Prop
  | undefined (h : holes) : Supported holes .undefined
  | null : Supported holes .null
  | boolean (b : Bool) : Supported holes (.boolean b)
  | integer (i : Int) : Supported holes (.integer i)
  | real (x : Binary64) : Supported holes (.real x)
  | text (t : Text) : Supported holes (.text t)
  | sequence (fixed : Bool) {items : List Value} (h : ∀ v ∈ items, Supported holes v) :
      Supported holes (.sequence fixed items)
  | mapping {entries : List (Text × Value)} (distinct : (entries.map (·.1)).Nodup)
      (h : ∀ e ∈ entries, Supported holes e.2) :
      Supported holes (.mapping (entries.map fun e => (.text e.1, e.2)))

/-- The values of JSON, which has no word for `undefined`. -/
abbrev IsJson : Value → Prop := Supported False

theorem Supported.singleton {holes : Prop} {v : Value} (h : v.Supported holes) (k : Text) :
    (Value.mapping [(.text k, v)]).Supported holes :=
  @Supported.mapping holes [(k, v)] (List.pairwise_singleton _ _) (List.forall_mem_singleton.2 h)

section Containers

variable {holes : Prop}

theorem supported_sequence_iff {fixed : Bool} {items : List Value} :
    (Value.sequence fixed items).Supported holes ↔ ∀ v ∈ items, v.Supported holes := by
  refine ⟨fun h => ?_, .sequence fixed⟩
  cases h with
  | sequence _ h => exact h

/-- Entries whose keys are texts. -/
theorem exists_entries {es : List (Value × Value)} (h : ∀ e ∈ es, ∃ t, e.1 = .text t) :
    ∃ entries : List (Text × Value), es = entries.map fun e => (.text e.1, e.2) := by
  induction es with
  | nil => exact ⟨[], rfl⟩
  | cons e rest ih =>
    rw [List.forall_mem_cons] at h
    obtain ⟨t, ht⟩ := h.1
    obtain ⟨entries, rfl⟩ := ih h.2
    exact ⟨(t, e.2) :: entries, by rw [List.map_cons, ← ht]⟩

theorem keys_entries (entries : List (Text × Value)) :
    (entries.map fun e => (Value.text e.1, e.2)).map (·.1) = (entries.map (·.1)).map .text := by
  rw [List.map_map, List.map_map]
  rfl

/-- A mapping is supported when its keys are distinct texts and its values supported. -/
theorem supported_mapping_iff {es : List (Value × Value)} :
    (Value.mapping es).Supported holes ↔ (es.map (·.1)).Nodup ∧
      ∀ e ∈ es, (∃ t, e.1 = .text t) ∧ e.2.Supported holes := by
  constructor
  · intro h
    cases h with
    | mapping distinct h =>
      refine ⟨?_, fun e he => ?_⟩
      · rw [keys_entries]
        exact distinct.map fun _ _ => Value.text.inj
      · obtain ⟨entry, hentry, rfl⟩ := List.mem_map.1 he
        exact ⟨⟨entry.1, rfl⟩, h entry hentry⟩
  · rintro ⟨hn, h⟩
    obtain ⟨entries, rfl⟩ := exists_entries fun e he => (h e he).1
    rw [keys_entries] at hn
    exact .mapping hn.of_map fun e he => (h _ (List.mem_map_of_mem he)).2

end Containers

/-- The text of a value that is one. -/
def text? : Value → Option Text
  | .text t => some t
  | _ => none

/-- The shape of a value that has one, wherever it is found. -/
def form (v : Value) : Shape := (v.shape []).toOption.getD .unknown

theorem form_eq_of_shape {v : Value} {s : Shape} (h : v.shape [] = .ok s) : v.form = s := by
  rw [form, h]
  rfl

theorem itemShapes_eq {items : List Value} (h : ∀ v ∈ items, ∀ path, v.shape path = .ok v.form)
    (path : Text) (index : Nat) : itemShapes path index items = .ok (items.map form) := by
  induction items generalizing index with
  | nil => rfl
  | cons v rest ih =>
    rw [List.forall_mem_cons] at h
    rw [itemShapes_cons, h.1, ih h.2]
    rfl

theorem entryShapes_eq {entries : List (Text × Value)}
    (h : ∀ e ∈ entries, ∀ path, e.2.shape path = .ok e.2.form) (path : Text) :
    entryShapes path (entries.map fun e => (.text e.1, e.2)) =
      .ok (entries.map fun e => (e.1, e.2.form)) := by
  induction entries with
  | nil => rfl
  | cons e rest ih =>
    rw [List.forall_mem_cons] at h
    rw [List.map_cons, entryShapes_cons, h.1, ih h.2]
    rfl

/-- **A supported value has one shape,** whatever the path. -/
theorem Supported.shape_eq {holes : Prop} {v : Value} (h : v.Supported holes) (path : Text) :
    v.shape path = .ok v.form := by
  induction h generalizing path with
  | undefined | null | boolean | integer | real | text => rfl
  | sequence fixed _ ih =>
    have hshape : ∀ path, shape path (.sequence fixed _) = .ok (arrayOf _) := fun path => by
      rw [shape_sequence, itemShapes_eq ih]
      rfl
    rw [hshape, form_eq_of_shape (hshape [])]
  | mapping _ _ ih =>
    have hshape : ∀ path, shape path (.mapping _) = .ok (objectOf _) := fun path => by
      rw [shape_mapping, entryShapes_eq ih]
      rfl
    rw [hshape, form_eq_of_shape (hshape [])]

section Forms

variable {holes : Prop}

theorem form_sequence (fixed : Bool) {items : List Value} (h : ∀ v ∈ items, v.Supported holes) :
    form (.sequence fixed items) = arrayOf (items.map form) := by
  refine form_eq_of_shape ?_
  rw [shape_sequence, itemShapes_eq fun v hv => (h v hv).shape_eq]
  rfl

theorem form_mapping {entries : List (Text × Value)} (h : ∀ e ∈ entries, e.2.Supported holes) :
    form (.mapping (entries.map fun e => (.text e.1, e.2))) =
      objectOf (entries.map fun e => (e.1, e.2.form)) := by
  refine form_eq_of_shape ?_
  rw [shape_mapping, entryShapes_eq fun e he => (h e he).shape_eq]
  rfl

theorem names_map_form (entries : List (Text × Value)) :
    Shape.names (entries.map fun e => (e.1, e.2.form)) = entries.map (·.1) := by
  rw [Shape.names, List.map_map]
  rfl

end Forms
end Value

namespace Shape

variable {holes : Prop}

/-- The samples' own shapes are joined from left to right. -/
theorem observed_eq {v : Value} {rest : List Value} (h : ∀ w ∈ v :: rest, w.Supported holes) :
    observed (v :: rest) = .ok (joinAll v.form (rest.map Value.form)) := by
  rw [observed, Value.itemShapes_eq fun w hw => (h w hw).shape_eq]
  rfl

/-- **Inference succeeds on supported samples.** -/
theorem infer_eq {v : Value} {rest : List Value} (h : ∀ w ∈ v :: rest, w.Supported holes) :
    infer (v :: rest) = .ok (joinAll v.form (rest.map Value.form)).normalize := by
  rw [infer, observed_eq h]
  rfl

end Shape
end SampleShape
