/-
# Shapes that are their own normal form

The normal form puts the placeholder in place of two sorts of shape and keeps one of each
group of equivalent items.  A shape is normal when there is nothing to do of either kind
anywhere in it (`Normal`), and these are the shapes that are their own normal form
(`normalize_eq_self_iff`).

Items are compared after they were put in normal form, as two of them may become equivalent
only then.  What is kept is normal at every depth all the same (`normal_normalize`): keeping
an item or dropping it changes nothing inside the others, and no container is ever replaced.
So normalizing again changes nothing.
-/

import SampleShape.Proofs.Rearrangement

namespace SampleShape
namespace Shape

/-- Whether a leaf kind is the only kind that was observed. -/
def OnlyLeaf (l : Leaf) (s : Shape) : Prop := ∀ k, k ∈ s.kinds ↔ k = .leaf l

/-- Whether something besides null and absence was observed, and no two items of an array are
equivalent. -/
structure NormalHere (s : Shape) : Prop where
  null : ¬ s.OnlyLeaf .null
  undefined : ¬ s.OnlyLeaf .undefined
  distinct : ∀ xs, s.items = some xs → xs.Pairwise fun x y => ¬ x.equiv y

/-- A shape in which there is nothing to normalize. -/
abbrev Normal : Shape → Prop := Everywhere NormalHere

theorem isDegenerate_iff_onlyLeaf {s : Shape} (hs : s.leaves.Nodup) :
    s.isDegenerate = true ↔ s.OnlyLeaf .null ∨ s.OnlyLeaf .undefined := by
  rw [isDegenerate_iff, eq_leaf_iff hs, eq_leaf_iff hs]
  rfl

theorem normalHere_of_distinct {s : Shape} (hs : s.leaves.Nodup) (hd : ¬ s.isDegenerate)
    (h : ∀ xs, s.items = some xs → xs.Pairwise fun x y => ¬ x.equiv y) : NormalHere s := by
  rw [isDegenerate_iff_onlyLeaf hs, not_or] at hd
  exact ⟨hd.1, hd.2, h⟩

/-! ### What is left as it is -/

theorem map_eq_self_iff {α : Type} {g : α → α} {xs : List α} :
    xs.map g = xs ↔ ∀ x ∈ xs, g x = x := by
  simpa using List.map_eq_map_iff (f := g) (g := id) (l := xs)

/-- Items that are changed one by one and compared then are what they were exactly if none
was changed and no two are equivalent. -/
theorem dedupe_map_eq_self_iff {g : Shape → Shape} {xs : List Shape} :
    dedupe (xs.map g) = xs ↔ (∀ x ∈ xs, g x = x) ∧ xs.Pairwise fun x y => ¬ x.equiv y := by
  constructor
  · intro h
    -- as many shapes are kept as there were, so none was dropped
    have hsub := dedupe_sublist (xs.map g)
    rw [h] at hsub
    have hmap : xs.map g = xs := (hsub.eq_of_length (List.length_map g).symm).symm
    rw [hmap, dedupe_eq_self_iff] at h
    exact ⟨map_eq_self_iff.1 hmap, h⟩
  · rintro ⟨hg, hdistinct⟩
    rw [map_eq_self_iff.2 hg]
    exact dedupe_eq_self_iff.2 hdistinct

/-- A shape that is not degenerate is its own normal form if its parts are, and no two of its
items are equivalent. -/
theorem normalize_eq_self_iff_parts {s : Shape} (hd : ¬ s.isDegenerate) :
    s.normalize = s ↔
      (∀ fs, s.fields = some fs → ∀ f ∈ fs, f.2.normalize = f.2) ∧
      ∀ xs, s.items = some xs →
        (∀ x ∈ xs, x.normalize = x) ∧ xs.Pairwise fun x y => ¬ x.equiv y := by
  rw [normalize_eq hd]
  obtain ⟨leaves, fields, items⟩ := s
  simp only [mk.injEq, true_and]
  refine and_congr ?_ ?_
  · cases fields with
    | none => simp
    | some fs => simp [map_eq_self_iff, Prod.ext_iff]
  · cases items with
    | none => simp
    | some xs => simp [dedupe_map_eq_self_iff]

/-- **A shape is its own normal form exactly if it is normal.** -/
theorem normalize_eq_self_iff {s : Shape} (hs : s.Formed) : s.normalize = s ↔ s.Normal := by
  induction hs with
  | intro here _ _ ihf ihx =>
    rename_i s _ _
    by_cases hd : s.isDegenerate
    · have hchanged : s.normalize ≠ s := by
        rcases isDegenerate_iff.1 hd with rfl | rfl <;> nofun
      have hnot : ¬ s.Normal := fun h =>
        ((isDegenerate_iff_onlyLeaf here.leaves).1 hd).elim h.here.null h.here.undefined
      exact iff_of_false hchanged hnot
    rw [normalize_eq_self_iff_parts hd]
    constructor
    · rintro ⟨hfields, hitems⟩
      refine .intro (normalHere_of_distinct here.leaves hd fun xs hxs => (hitems xs hxs).2) ?_ ?_
      · exact fun fs hfs f hf => (ihf fs hfs f hf).1 (hfields fs hfs f hf)
      · exact fun xs hxs x hx => (ihx xs hxs x hx).1 ((hitems xs hxs).1 x hx)
    · intro h
      refine ⟨fun fs hfs f hf => (ihf fs hfs f hf).2 (h.field hfs hf), fun xs hxs => ⟨?_, ?_⟩⟩
      · exact fun x hx => (ihx xs hxs x hx).2 (h.item hxs hx)
      · exact h.here.distinct xs hxs

/-! ### Normal forms -/

/-- One step towards the normal form leaves nothing more to do in its place. -/
theorem normalHere_normalize {s : Shape} (hs : FormedHere s) (hd : ¬ s.isDegenerate) :
    NormalHere s.normalize := by
  have honly : ∀ l, s.normalize.OnlyLeaf l ↔ s.OnlyLeaf l := fun l => by
    rw [OnlyLeaf, OnlyLeaf, kinds_normalize hd]
  have hneither := mt (isDegenerate_iff_onlyLeaf hs.leaves).2 hd
  rw [not_or, ← honly, ← honly] at hneither
  refine ⟨hneither.1, hneither.2, fun ys hys => ?_⟩
  rw [normalize_eq hd] at hys
  obtain ⟨xs, -, rfl⟩ := Option.map_eq_some_iff.1 hys
  exact pairwise_dedupe _

theorem normalHere_unknown : NormalHere unknown :=
  normalHere_of_distinct (by decide) (by decide) nofun

/-- **Normal forms are normal.** -/
theorem normal_normalize {s : Shape} (hs : s.Formed) : s.normalize.Normal :=
  hs.normalize normalHere_unknown fun _ hs => normalHere_normalize hs.here

/-- **The laws of the normal form,** for shapes that `Shape.make` accepts.  The normal form is
returned, also when each shape on the way is checked.  A shape is its own normal form exactly
if no part of it has null or `undefined` for its only kind and no array in it has two
equivalent items; a normal form is its own normal form; and equivalent shapes have equivalent
normal forms.  Sketches with gaps are left out: they have no normal form. -/
theorem normalize_laws {a b : Shape} (ha : a.Made) (hb : b.Made) :
    Making.normalize a = .ok a.normalize ∧
    (a.normalize = a ↔ a.Normal) ∧
    a.normalize.normalize = a.normalize ∧
    (a.equiv b → a.normalize.equiv b.normalize) := by
  have ha := ha.formed_of_made
  refine ⟨Making.normalize_eq_ok ha, normalize_eq_self_iff ha, ?_, ?_⟩
  · exact (normalize_eq_self_iff (formed_normalize ha)).2 (normal_normalize ha)
  · exact equiv_normalize ha hb.formed_of_made

/-- An array of texts, listed twice, and of objects that differ in how a field is unfilled. -/
def collapsingItems : Shape :=
  array [leaf .string, object [("a", leaf .null)], object [("a", leaf .undefined)], leaf .string]

/-- The same items in another order, the text once. -/
def reorderedItems : Shape :=
  array [object [("a", leaf .undefined)], object [("a", leaf .null)], leaf .string]

theorem made_collapsingItems : collapsingItems.Made := by
  refine made_array ?_
  rw [List.forall_mem_cons, List.forall_mem_cons, List.forall_mem_cons, List.forall_mem_singleton]
  exact ⟨made_leaf .string, made_singleField (made_leaf .null),
    made_singleField (made_leaf .undefined), made_leaf .string⟩

theorem made_reorderedItems : reorderedItems.Made := by
  refine made_array ?_
  rw [List.forall_mem_cons, List.forall_mem_cons, List.forall_mem_singleton]
  exact ⟨made_singleField (made_leaf .undefined), made_singleField (made_leaf .null),
    made_leaf .string⟩

theorem normalize_laws_collapsingItems :
    collapsingItems.Made ∧ reorderedItems.Made ∧ collapsingItems.equiv reorderedItems ∧
    Making.normalize collapsingItems = .ok collapsingItems.normalize ∧
    collapsingItems.normalize = array [leaf .string, object [("a", unknown)]] ∧
    ¬ collapsingItems.Normal ∧
    collapsingItems.normalize.normalize = collapsingItems.normalize ∧
    collapsingItems.normalize.equiv reorderedItems.normalize := by
  obtain ⟨hmaking, hiff, hidem, hequiv⟩ := normalize_laws made_collapsingItems made_reorderedItems
  have hsame : collapsingItems.equiv reorderedItems := by decide
  have hform : collapsingItems.normalize = array [leaf .string, object [("a", unknown)]] := rfl
  refine ⟨made_collapsingItems, made_reorderedItems, hsame, hmaking, hform, ?_, hidem,
    hequiv hsame⟩
  intro hnormal
  have hlength := congrArg (fun s => s.items.map List.length) (hform.symm.trans (hiff.2 hnormal))
  exact absurd hlength (by decide)

end Shape
end SampleShape
