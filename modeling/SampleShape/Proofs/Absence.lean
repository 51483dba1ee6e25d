/-
# Fields that some sample lacks

A field that a mapping among the samples lacks may be unfilled: the join marks it, and the
mark stays through every further join (`exists_observed_field`).  The normal form keeps the
mark of a field at which anything was observed, be it `null`.  It drops it with the field's
shape where `undefined` is all that the samples ever hold there: such a field was never
filled, and becomes the placeholder (`isOptional_normalize_iff`).

So of a field that some sample has and another lacks, the inferred shape says that it is
optional exactly if some sample fills it (`isOptional_infer_iff`), and the two ways of
leaving a field unfilled together can make it look required (`infer_forgets_absence`).
-/

import SampleShape.Proofs.Access
import SampleShape.Proofs.Conformance

namespace SampleShape
namespace Shape

/-! ### Facts about a name -/

theorem shows_name_iff {name : Text} {s : Shape} :
    s.Shows (.name name) ↔ ∃ t, s.get? name = some t := by
  unfold get?
  cases hfs : s.fields <;> simp [Shows, hfs, mem_names_iff, Option.isSome_iff_exists]

theorem shows_field_iff {name : Text} {f : Fact} {s : Shape} :
    s.Shows (.field name f) ↔ (∃ t, s.get? name = some t ∧ t.Shows f) ∨
      (s.isObject = true ∧ s.get? name = none ∧ f = .kind (.leaf .undefined)) := by
  unfold get?
  cases hfs : s.fields <;> simp [Shows, hfs, isObject]

end Shape

namespace Value

/-- Whether a value is a mapping without an entry of a given name. -/
def Lacks (name : Text) (v : Value) : Prop :=
  ∃ entries, v = .mapping entries ∧ find? name entries = none

variable {holes : Prop}

/-- A value other than `undefined` has a kind that counts as filled, and so has its shape. -/
theorem solidHere_form {v : Value} (h : v.Supported holes) :
    Shape.SolidHere v.form ↔ v ≠ .undefined := by
  rw [Shape.SolidHere, kinds_form h]
  cases h <;> simp [kind?, leaf?]

/-- A value lacks a name if its shape is an object and nothing is found under the name. -/
theorem lacks_iff {v : Value} (h : v.Supported holes) {name : Text} :
    v.Lacks name ↔ v.form.isObject = true ∧ v.get? name = none := by
  cases h with
  | undefined | null | boolean | integer | real | text =>
    simp [Lacks, form, shape, shapeBy, leaf?, Except.toOption, Shape.leaf, Shape.isObject]
  | sequence fixed h =>
    simp [Lacks, form_sequence fixed h, arrayOf, Shape.array, Shape.isObject]
  | mapping hn h => simp [Lacks, form_mapping h, objectOf, Shape.object, Shape.isObject, get?]

/-- Under a name, the shape of a value shows what its entry shows; a mapping without the
entry shows there that it may be unfilled. -/
theorem shows_field_form {name : Text} (hname : name ≠ Shape.anyKey) {v : Value}
    (h : v.Supported holes) (f : Fact) :
    v.form.Shows (.field name f) ↔ (∃ w, v.get? name = some w ∧ w.form.Shows f) ∨
      (v.Lacks name ∧ f = .kind (.leaf .undefined)) := by
  have hsame : v.form.get? name = (v.get? name).map form :=
    (get?_form h name).resolve_right fun hany => hname hany.1
  rw [Shape.shows_field_iff, hsame, lacks_iff h]
  simp only [Option.map_eq_some_iff, exists_exists_and_eq_and, Option.map_eq_none_iff, and_assoc]

/-- A value has an entry of a name exactly if its shape has a field of that name. -/
theorem shows_name_form {name : Text} (hname : name ≠ Shape.anyKey) {v : Value}
    (h : v.Supported holes) :
    v.form.Shows (.name name) ↔ ∃ w, v.get? name = some w := by
  have hsame : v.form.get? name = (v.get? name).map form :=
    (get?_form h name).resolve_right fun hany => hname hany.1
  rw [Shape.shows_name_iff, hsame]
  simp only [Option.map_eq_some_iff, exists_comm, exists_eq_right']

end Value

namespace Shape

variable {holes : Prop}

/-- **What is observed of a field** is what the samples show under its name, and that it
may be unfilled if one of them lacks it. -/
theorem exists_observed_field {v : Value} {rest : List Value} {name : Text}
    (h : ∀ w ∈ v :: rest, w.Supported holes) (hname : name ≠ anyKey)
    (hpresent : ∃ w ∈ v :: rest, ∃ u, w.get? name = some u) :
    ∃ t, (joinAll v.form (rest.map Value.form)).get? name = some t ∧ ∀ f, t.Shows f ↔
      (∃ w ∈ v :: rest, ∃ u, w.get? name = some u ∧ u.form.Shows f) ∨
        ((∃ w ∈ v :: rest, w.Lacks name) ∧ f = .kind (.leaf .undefined)) := by
  obtain ⟨t, ht⟩ : ∃ t, (joinAll v.form (rest.map Value.form)).get? name = some t := by
    obtain ⟨w, hw, hentry⟩ := hpresent
    rw [← shows_name_iff, shows_joinAll_form]
    exact ⟨w, hw, (Value.shows_name_form hname (h w hw)).2 hentry⟩
  refine ⟨t, ht, fun f => ?_⟩
  have hfield : t.Shows f ↔ (joinAll v.form (rest.map Value.form)).Shows (.field name f) := by
    simp [shows_field_iff, ht]
  rw [hfield, shows_joinAll_form]
  constructor
  · rintro ⟨w, hw, hshows⟩
    rcases (Value.shows_field_form hname (h w hw) f).1 hshows with hentry | ⟨hlacks, rfl⟩
    · exact Or.inl ⟨w, hw, hentry⟩
    · exact Or.inr ⟨⟨w, hw, hlacks⟩, rfl⟩
  · rintro (⟨w, hw, hentry⟩ | ⟨⟨w, hw, hlacks⟩, rfl⟩)
    · exact ⟨w, hw, (Value.shows_field_form hname (h w hw) f).2 (Or.inl hentry)⟩
    · exact ⟨w, hw, (Value.shows_field_form hname (h w hw) _).2 (Or.inr ⟨hlacks, rfl⟩)⟩

/-- **A field that may be unfilled keeps its mark in the normal form exactly if anything
was observed there.**  Otherwise it becomes the placeholder. -/
theorem isOptional_normalize_iff {s : Shape} (hs : s.leaves.Nodup) (hopt : s.isOptional = true) :
    (s.normalize.isOptional = true ↔ SolidHere s) ∧
      (¬ s.normalize.isOptional = true → s.normalize = unknown) := by
  by_cases hsolid : SolidHere s
  · have hkept := isOptional_normalize hsolid hopt
    exact ⟨iff_of_true hkept hsolid, fun h => absurd hkept h⟩
  -- `undefined` is the only kind, so the shape is that leaf
  have hleaf : s = leaf .undefined := by
    refine (eq_leaf_iff hs).2 fun k => ⟨fun hk => ?_, ?_⟩
    · by_contra hne
      exact hsolid ⟨k, hk, hne⟩
    · rintro rfl
      exact mem_kinds_iff.2 (by simpa [isOptional] using hopt)
  have hunknown : s.normalize = unknown := hleaf ▸ rfl
  rw [hunknown]
  exact ⟨iff_of_false (by decide) hsolid, fun _ => rfl⟩

/-- A shape with fields stays an object, and its fields go to their normal forms. -/
theorem get?_normalize {s t : Shape} {name : Text} (h : s.get? name = some t) :
    s.normalize.get? name = some t.normalize := by
  obtain ⟨fs, hfs, ht⟩ := Option.bind_eq_some_iff.1 h
  have hd : ¬ s.isDegenerate := by
    rw [isDegenerate_iff]
    rintro (rfl | rfl) <;> cases hfs
  rw [normalize_eq hd]
  simp [get?, hfs, field?_map, ht]

/-- **Absence is remembered where something was observed.**  Of a field that one sample has
and a mapping among the samples lacks, the inferred shape says that it is optional exactly
if a sample fills it with anything but `undefined`; otherwise the field is the placeholder. -/
theorem isOptional_infer_iff {samples : List Value} {name : Text}
    (h : ∀ v ∈ samples, v.Supported True) (hname : name ≠ anyKey)
    (hpresent : ∃ v ∈ samples, ∃ w, v.get? name = some w)
    (habsent : ∃ v ∈ samples, v.Lacks name) :
    ∃ s t, infer samples = .ok s ∧ s.get? name = some t ∧
      (t.isOptional = true ↔ ∃ v ∈ samples, ∃ w, v.get? name = some w ∧ w ≠ .undefined) ∧
      (¬ t.isOptional = true → t = unknown) := by
  obtain ⟨v, rest, rfl⟩ : ∃ v rest, samples = v :: rest := by
    obtain ⟨v, hv, -⟩ := hpresent
    exact List.exists_cons_of_ne_nil (List.ne_nil_of_mem hv)
  obtain ⟨t, ht, hshows⟩ := exists_observed_field h hname hpresent
  have hnodup : t.leaves.Nodup := by
    obtain ⟨fs, hfs, hfield⟩ := Option.bind_eq_some_iff.1 ht
    exact ((valid_joinAll_form h).field hfs (mem_of_field? hfield)).here.leaves
  have hopt : t.isOptional = true := by
    have hkind : Kind.leaf .undefined ∈ t.kinds :=
      (hshows (.kind (.leaf .undefined))).2 (Or.inr ⟨habsent, rfl⟩)
    exact Value.isOptional_iff.2 (mem_kinds_iff.1 hkind)
  have hsolid : SolidHere t ↔
      ∃ u ∈ v :: rest, ∃ w, u.get? name = some w ∧ w ≠ .undefined := by
    constructor
    · rintro ⟨k, hk, hne⟩
      rcases (hshows (.kind k)).1 hk with ⟨u, hu, w, hw, hkw⟩ | ⟨-, hk⟩
      · exact ⟨u, hu, w, hw, (Value.solidHere_form ((h u hu).get? hw)).1 ⟨k, hkw, hne⟩⟩
      · exact absurd (Fact.kind.inj hk) hne
    · rintro ⟨u, hu, w, hw, hfilled⟩
      obtain ⟨k, hkw, hne⟩ := (Value.solidHere_form ((h u hu).get? hw)).2 hfilled
      exact ⟨k, (hshows (.kind k)).2 (Or.inl ⟨u, hu, w, hw, hkw⟩), hne⟩
  obtain ⟨hiff, hunknown⟩ := isOptional_normalize_iff hnodup hopt
  exact ⟨_, t.normalize, infer_eq h, get?_normalize ht, hiff.trans hsolid, hunknown⟩

/-- A field that is missing, `undefined` and `null`: three samples, of which the last one
fills it. -/
def thriceUnfilled : List Value :=
  [.mapping [(.text "b", .integer 1)], .mapping [(.text "a", .undefined)],
    .mapping [(.text "a", .null)]]

theorem supported_thriceUnfilled : ∀ v ∈ thriceUnfilled, v.Supported True := by
  rw [thriceUnfilled, List.forall_mem_cons, List.forall_mem_cons, List.forall_mem_singleton]
  exact ⟨Value.Supported.singleton (.integer 1) "b",
    Value.Supported.singleton (.undefined trivial) "a", Value.Supported.singleton .null "a"⟩

theorem isOptional_infer_iff_thriceUnfilled :
    (∀ v ∈ thriceUnfilled, v.Supported True) ∧ Text.ofString "a" ≠ anyKey ∧
      (∃ v ∈ thriceUnfilled, ∃ w, v.get? "a" = some w) ∧
      (∃ v ∈ thriceUnfilled, v.Lacks "a") ∧
      ∃ s t, infer thriceUnfilled = .ok s ∧ s.get? "a" = some t ∧
        (t.isOptional = true ↔
          ∃ v ∈ thriceUnfilled, ∃ w, v.get? "a" = some w ∧ w ≠ .undefined) ∧
        (¬ t.isOptional = true → t = unknown) := by
  have hname : Text.ofString "a" ≠ anyKey := by decide
  have hpresent : ∃ v ∈ thriceUnfilled, ∃ w, v.get? "a" = some w :=
    ⟨.mapping [(.text "a", .undefined)], by simp [thriceUnfilled], .undefined, rfl⟩
  have habsent : ∃ v ∈ thriceUnfilled, v.Lacks "a" :=
    ⟨.mapping [(.text "b", .integer 1)], by simp [thriceUnfilled], _, rfl, rfl⟩
  exact ⟨supported_thriceUnfilled, hname, hpresent, habsent,
    isOptional_infer_iff supported_thriceUnfilled hname hpresent habsent⟩

/-- A field that no sample fills: one holds `undefined` there, the other lacks it. -/
def neverFilled : List Value :=
  [.mapping [(.text "a", .undefined), (.text "b", .integer 1)], .mapping [(.text "b", .integer 1)]]

/-- **Absence is forgotten where nothing was observed.**  The field is present in one
mapping, absent from the other, and not optional in the inferred shape. -/
theorem infer_forgets_absence :
    (∀ v ∈ neverFilled, v.Supported True ∧ ∃ e es, v = .mapping (e :: es)) ∧
      Text.ofString "a" ≠ anyKey ∧ (∃ v ∈ neverFilled, ∃ w, v.get? "a" = some w) ∧
      (∃ v ∈ neverFilled, v.Lacks "a") ∧
      ∃ s t, infer neverFilled = .ok s ∧ s.get? "a" = some t ∧ t.isOptional = false := by
  have hboth : (Value.mapping [(.text "a", .undefined), (.text "b", .integer 1)]).Supported True :=
    @Value.Supported.mapping _ [("a", .undefined), ("b", .integer 1)] (by decide)
      (List.forall_mem_cons.2 ⟨.undefined trivial, List.forall_mem_singleton.2 (.integer 1)⟩)
  refine ⟨?_, by decide, ⟨_, List.mem_cons_self, .undefined, rfl⟩,
    ⟨.mapping [(.text "b", .integer 1)], by simp [neverFilled], _, rfl, rfl⟩,
    ⟨[], some [("b", leaf .number), ("a", unknown)], none⟩, unknown, rfl, rfl, rfl⟩
  rw [neverFilled, List.forall_mem_cons, List.forall_mem_singleton]
  exact ⟨⟨hboth, _, _, rfl⟩, Value.Supported.singleton (.integer 1) "b", _, _, rfl⟩

end Shape
end SampleShape
