/-
# The order of samples

The facts that the join of samples shows do not depend on their order, since each is
shown by some sample (`shows_joinAll_form`).  The join itself does, where a sample has an
array of different objects: met again as it is, the array is kept with its objects
apart; met after another kind of value, it counts as new, and its objects are folded
into one (`infer_depends_on_order`).  So two orders of the same samples give shapes
that are equivalent once they are folded, and equivalent as they are if they are folded
already, for which it is enough that the samples' own shapes are (`infer_perm`).
-/

import SampleShape.Proofs.Folding

namespace SampleShape
namespace Shape

/-- Samples that are the same up to order are joined to shapes that show the same. -/
theorem exists_observed_of_perm {holes : Prop} {samples permuted : List Value}
    (hne : samples ≠ []) (h : ∀ v ∈ samples, v.Supported holes) (hperm : samples.Perm permuted) :
    ∃ a b, observed samples = .ok a ∧ observed permuted = .ok b ∧ a.Valid ∧ b.Valid ∧
      (∀ f, a.Shows f ↔ b.Shows f) ∧
      ((∀ v ∈ samples, v.form.Folded) → a.Folded ∧ b.Folded) := by
  have h' : ∀ v ∈ permuted, v.Supported holes := fun v hv => h v (hperm.mem_iff.2 hv)
  obtain ⟨v, rest, rfl⟩ := List.exists_cons_of_ne_nil hne
  have hne' : permuted ≠ [] := fun hnil => hne (List.perm_nil.1 (hnil ▸ hperm))
  obtain ⟨w, rest', rfl⟩ := List.exists_cons_of_ne_nil hne'
  refine ⟨_, _, observed_eq h, observed_eq h', ?_, ?_, ?_, ?_⟩
  · exact valid_joinAll_form h
  · exact valid_joinAll_form h'
  · intro f
    rw [shows_joinAll_form, shows_joinAll_form]
    simp only [hperm.mem_iff]
  · intro hfolded
    have hfolded' : ∀ u ∈ w :: rest', u.form.Folded := fun u hu =>
      hfolded u (hperm.mem_iff.2 hu)
    exact ⟨joinAll_form_of_forall (fun _ _ => folded_join) hfolded,
      joinAll_form_of_forall (fun _ _ => folded_join) hfolded'⟩

/-- **The order of samples matters only for what is folded.**  The same JSON samples in
another order are joined to a shape that is equivalent once both are folded; and where
both are folded already, as when the shapes of the samples are, the inferred shapes are
equivalent. -/
theorem infer_perm {samples permuted : List Value} (hne : samples ≠ [])
    (h : ∀ v ∈ samples, v.IsJson) (hperm : samples.Perm permuted) :
    ∃ a b, observed samples = .ok a ∧ observed permuted = .ok b ∧
      infer samples = .ok a.normalize ∧ infer permuted = .ok b.normalize ∧
      a.fold.equiv b.fold ∧
      (a.Folded → b.Folded → a.normalize.equiv b.normalize) ∧
      ((∀ v ∈ samples, v.form.Folded) → a.normalize.equiv b.normalize) := by
  obtain ⟨a, b, ha, hb, hva, hvb, hshows, hfolded⟩ := exists_observed_of_perm hne h hperm
  have hequiv : a.Folded → b.Folded → a.normalize.equiv b.normalize := fun hfa hfb =>
    equiv_normalize hva.formed hvb.formed (equiv_of_shows hfa hfb hshows)
  refine ⟨a, b, ha, hb, ?_, ?_, equiv_fold_of_shows hva hvb hshows, hequiv, fun hforms => ?_⟩
  · rw [infer, ha]
    rfl
  · rw [infer, hb]
    rfl
  · exact hequiv (hfolded hforms).1 (hfolded hforms).2

/-- An array of two objects that have no field in common. -/
def twoObjects : Value :=
  .sequence false [.mapping [(.text "a", .integer 1)], .mapping [(.text "b", .integer 1)]]

theorem isJson_twoObjects : twoObjects.IsJson :=
  .sequence false (List.forall_mem_cons.2 ⟨(Value.Supported.integer 1).singleton "a",
    List.forall_mem_singleton.2 ((Value.Supported.integer 1).singleton "b")⟩)

theorem isJson_twice_twoObjects : ∀ v ∈ [twoObjects, twoObjects, .text "x"], v.IsJson := by
  rw [List.forall_mem_cons, List.forall_mem_cons, List.forall_mem_singleton]
  exact ⟨isJson_twoObjects, isJson_twoObjects, .text "x"⟩

/-- An array of an object with a third field. -/
def thirdObject : Value := .sequence false [.mapping [(.text "c", .integer 1)]]

theorem isJson_thirdObject : thirdObject.IsJson :=
  .sequence false (List.forall_mem_singleton.2 ((Value.Supported.integer 1).singleton "c"))

/-- The array of the three objects, folded, with the fields in a given order. -/
def threeFolded (names : List Text) : Shape :=
  array [object (names.map fun k => (k, (leaf .number).withLeaf .undefined))]

theorem folded_threeFolded {names : List Text} (h : names.Nodup) :
    (threeFolded names).Folded := by
  have hfield : ((leaf .number).withLeaf .undefined).Folded :=
    Everywhere.withLeaf (fun _ hs => hs.withLeaf) (folded_leaf .number)
  refine folded_singleItem (folded_object ?_ ?_)
  · rwa [Shape.names, List.map_map, Function.comp_def, List.map_id']
  · intro f hf
    obtain ⟨k, -, rfl⟩ := List.mem_map.1 hf
    exact hfield

/-- Two orders of samples of which one leaves an array unfolded; two in which the same array is
folded, so that the results agree; and two of samples that are folded themselves. -/
theorem infer_perm_twoObjects :
    (∃ a b, observed [twoObjects, twoObjects, .text "x"] = .ok a ∧
      observed [twoObjects, .text "x", twoObjects] = .ok b ∧
      infer [twoObjects, twoObjects, .text "x"] = .ok a.normalize ∧
      infer [twoObjects, .text "x", twoObjects] = .ok b.normalize ∧
      a.fold.equiv b.fold) ∧
    ((threeFolded ["a", "b", "c"]).Folded ∧ (threeFolded ["c", "a", "b"]).Folded ∧
      infer [twoObjects, thirdObject] = .ok (threeFolded ["a", "b", "c"]).normalize ∧
      infer [thirdObject, twoObjects] = .ok (threeFolded ["c", "a", "b"]).normalize ∧
      (threeFolded ["a", "b", "c"]).normalize.equiv (threeFolded ["c", "a", "b"]).normalize) ∧
    ∃ s t, (∀ v ∈ [thirdObject, .text "x"], v.form.Folded) ∧
      infer [thirdObject, .text "x"] = .ok s ∧ infer [.text "x", thirdObject] = .ok t ∧
      s.equiv t := by
  refine ⟨?_, ?_, ?_⟩
  · obtain ⟨a, b, ha, hb, hinfer, hinfer', hfold, -⟩ := infer_perm (List.cons_ne_nil _ _)
      isJson_twice_twoObjects ((List.Perm.swap _ _ _).cons _)
    exact ⟨a, b, ha, hb, hinfer, hinfer', hfold⟩
  · have hjson : ∀ v ∈ [twoObjects, thirdObject], v.IsJson :=
      List.forall_mem_cons.2 ⟨isJson_twoObjects, List.forall_mem_singleton.2 isJson_thirdObject⟩
    obtain ⟨a, b, ha, hb, hinfer, hinfer', -, hequiv, -⟩ :=
      infer_perm (List.cons_ne_nil _ _) hjson (List.Perm.swap _ _ _)
    obtain rfl : threeFolded ["a", "b", "c"] = a := Except.ok.inj ha
    obtain rfl : threeFolded ["c", "a", "b"] = b := Except.ok.inj hb
    have hfolded : (threeFolded ["a", "b", "c"]).Folded := folded_threeFolded (by decide)
    have hfolded' : (threeFolded ["c", "a", "b"]).Folded := folded_threeFolded (by decide)
    exact ⟨hfolded, hfolded', hinfer, hinfer', hequiv hfolded hfolded'⟩
  · have hjson : ∀ v ∈ [thirdObject, .text "x"], v.IsJson :=
      List.forall_mem_cons.2 ⟨isJson_thirdObject, List.forall_mem_singleton.2 (.text "x")⟩
    have hobject : (object [("c", leaf .number)]).Folded :=
      folded_object (List.pairwise_singleton _ _) (List.forall_mem_singleton.2 (folded_leaf _))
    have hforms : ∀ v ∈ [thirdObject, .text "x"], v.form.Folded := by
      rw [List.forall_mem_cons, List.forall_mem_singleton]
      exact ⟨folded_singleItem hobject, folded_leaf .string⟩
    obtain ⟨a, b, -, -, hinfer, hinfer', -, -, hequiv⟩ :=
      infer_perm (List.cons_ne_nil _ _) hjson (List.Perm.swap _ _ _)
    exact ⟨_, _, hforms, hinfer, hinfer', hequiv hforms⟩

/-- **The order of samples matters.**  An array of two objects is seen twice: before
another kind of value its objects stay apart, with that value in between they are folded
into one. -/
theorem infer_depends_on_order :
    (∀ v ∈ [twoObjects, twoObjects, .text "x"], v.IsJson) ∧
      [twoObjects, twoObjects, .text "x"].Perm [twoObjects, .text "x", twoObjects] ∧
      ∃ s t, infer [twoObjects, twoObjects, .text "x"] = .ok s ∧
        infer [twoObjects, .text "x", twoObjects] = .ok t ∧ s.equiv t = false :=
  ⟨isJson_twice_twoObjects, (List.Perm.swap _ _ _).cons _, _, _, rfl, rfl, by decide⟩

end Shape
end SampleShape
