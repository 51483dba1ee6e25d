/-
# The normal form, part by part

The normal form of a degenerate shape is the placeholder; that of any other shape
keeps its leaf kinds and its field names and has the normal forms of its parts
(`normalize_eq`).  So it keeps what holds of the placeholder and is kept by a single
such step (`Everywhere.normalize`).

Equivalent shapes have equivalent normal forms (`equiv_normalize`).
-/

import SampleShape.Proofs.Joining
import SampleShape.Shape.Normalize

namespace SampleShape
namespace Shape

theorem isDegenerate_iff {s : Shape} :
    s.isDegenerate = true ↔ s = leaf .null ∨ s = leaf .undefined := by
  constructor
  · intro h
    unfold isDegenerate at h
    split at h
    · exact Or.inl rfl
    · exact Or.inr rfl
    · cases h
  · rintro (rfl | rfl) <;> rfl

theorem normalize_of_isDegenerate {s : Shape} (h : s.isDegenerate) : s.normalize = unknown := by
  rcases isDegenerate_iff.1 h with rfl | rfl <;> rfl

section Parts

variable {m : Type → Type} [Monad m] [LawfulMonad m] {check : Shape → m Shape}
  {g : Shape → Shape}

theorem normalizeFieldsBy_eq_pure {fs : List (Text × Shape)}
    (h : ∀ f ∈ fs, normalizeBy check f.2 = pure (g f.2)) :
    normalizeFieldsBy check fs = pure (fs.map fun f => (f.1, g f.2)) := by
  induction fs with
  | nil => rfl
  | cons f rest ih =>
    rw [List.forall_mem_cons] at h
    rw [normalizeFieldsBy, h.1, ih h.2, pure_bind, pure_bind, List.map_cons]

theorem normalizeItemsBy_eq_pure {xs : List Shape}
    (h : ∀ x ∈ xs, normalizeBy check x = pure (g x)) :
    normalizeItemsBy check xs = pure (xs.map g) := by
  induction xs with
  | nil => rfl
  | cons x rest ih =>
    rw [List.forall_mem_cons] at h
    rw [normalizeItemsBy, h.1, ih h.2, pure_bind, pure_bind, List.map_cons]

/-- A shape that is not degenerate is put together from the normal forms of its parts. -/
theorem normalizeBy_eq {s : Shape} (hd : ¬ s.isDegenerate)
    (hf : ∀ fs, s.fields = some fs → ∀ f ∈ fs, normalizeBy check f.2 = pure (g f.2))
    (hx : ∀ xs, s.items = some xs → ∀ x ∈ xs, normalizeBy check x = pure (g x)) :
    normalizeBy check s = check ⟨s.leaves, s.fields.map fun fs => fs.map fun f => (f.1, g f.2),
      s.items.map fun xs => dedupe (xs.map g)⟩ := by
  obtain ⟨leaves, fields, items⟩ := s
  rw [normalizeBy, if_neg hd]
  cases fields with
  | none =>
    cases items with
    | none => simp
    | some xs => simp [normalizeItemsBy_eq_pure (hx xs rfl)]
  | some fs =>
    cases items with
    | none => simp [normalizeFieldsBy_eq_pure (hf fs rfl)]
    | some xs =>
      simp [normalizeFieldsBy_eq_pure (hf fs rfl), normalizeItemsBy_eq_pure (hx xs rfl)]

end Parts

/-- **The normal form of a shape that is not degenerate** has the normal forms of its
parts. -/
theorem normalize_eq {s : Shape} (h : ¬ s.isDegenerate) :
    s.normalize = ⟨s.leaves, s.fields.map fun fs => fs.map fun f => (f.1, f.2.normalize),
      s.items.map fun xs => dedupe (xs.map normalize)⟩ :=
  normalizeBy_eq (m := Id) h (fun _ _ _ _ => rfl) fun _ _ _ _ => rfl

theorem Everywhere.normalize {p q : Shape → Prop} (hunknown : q Shape.unknown)
    (hstep : ∀ s, Everywhere p s → ¬ s.isDegenerate → q s.normalize) {s : Shape}
    (h : Everywhere p s) : Everywhere q s.normalize := by
  induction h with
  | intro here hf hx ihf ihx =>
    rename_i s
    by_cases hd : s.isDegenerate
    · rw [normalize_of_isDegenerate hd]
      exact Everywhere.unknown hunknown
    refine .intro (hstep s (.intro here hf hx) hd) ?_ ?_
    · intro gs hgs g hg
      rw [normalize_eq hd] at hgs
      obtain ⟨fs, hfs, rfl⟩ := Option.map_eq_some_iff.1 hgs
      obtain ⟨f, hf, rfl⟩ := List.mem_map.1 hg
      exact ihf fs hfs f hf
    · intro ys hys y hy
      rw [normalize_eq hd] at hys
      obtain ⟨xs, hxs, rfl⟩ := Option.map_eq_some_iff.1 hys
      obtain ⟨x, hx, rfl⟩ := List.mem_map.1 (mem_of_mem_dedupe hy)
      exact ihx xs hxs x hx

/-- Apart from degenerate shapes, the normal form has the kinds of the shape. -/
theorem kinds_normalize {s : Shape} (h : ¬ s.isDegenerate) : s.normalize.kinds = s.kinds := by
  rw [normalize_eq h]
  simp only [kinds, isObject, isArray, Option.isSome_map]

theorem FormedHere.normalize {s : Shape} (hs : FormedHere s) (h : ¬ s.isDegenerate) :
    FormedHere s.normalize where
  leaves := by
    rw [normalize_eq h]
    exact hs.leaves
  names := by
    intro gs hgs
    rw [normalize_eq h] at hgs
    obtain ⟨fs, hfs, rfl⟩ := Option.map_eq_some_iff.1 hgs
    rw [names_map]
    exact hs.names fs hfs
  kinds := by
    rw [kinds_normalize h]
    exact hs.kinds

theorem formedHere_unknown : FormedHere unknown where
  leaves := by decide
  names := nofun
  kinds := by decide

theorem formed_normalize {s : Shape} (h : s.Formed) : s.normalize.Formed :=
  h.normalize formedHere_unknown fun _ hs => hs.here.normalize

/-! ### Equivalent shapes -/

/-- Two lists that cover each other still do when one shape of each class is kept. -/
theorem itemsAgree_dedupe {xs ys : List Shape} (hys : ∀ y ∈ ys, y.Formed)
    (h : ItemsAgree (some xs) (some ys)) : ItemsAgree (some (dedupe xs)) (some (dedupe ys)) := by
  constructor
  · intro x hx
    obtain ⟨y, hy, hxy⟩ := h.1 x (mem_of_mem_dedupe hx)
    obtain ⟨y', hy', rfl | heq⟩ := exists_mem_dedupe hy
    · exact ⟨y', hy', hxy⟩
    · exact ⟨y', hy', equiv_trans hxy (equiv_symm (hys y hy) heq)⟩
  · intro y hy
    obtain ⟨x, hx, hxy⟩ := h.2 y (mem_of_mem_dedupe hy)
    obtain ⟨x', hx', rfl | heq⟩ := exists_mem_dedupe hx
    · exact ⟨x', hx', hxy⟩
    · exact ⟨x', hx', equiv_trans heq hxy⟩

/-- A shape of one leaf kind is told by its kinds. -/
theorem eq_leaf_iff {s : Shape} (hs : s.leaves.Nodup) {l : Leaf} :
    s = leaf l ↔ ∀ k, k ∈ s.kinds ↔ k = .leaf l := by
  constructor
  · rintro rfl k
    cases k <;> simp [mem_kinds_iff, leaf, isObject, isArray]
  · intro h
    obtain ⟨leaves, fields, items⟩ := s
    have hleaf : ∀ m, m ∈ leaves ↔ m = l := fun m => by
      simpa [mem_kinds_iff] using h (.leaf m)
    have hobj : fields = none := by simpa [mem_kinds_iff, isObject] using h .object
    have harr : items = none := by simpa [mem_kinds_iff, isArray] using h .array
    have hleaves : leaves.Perm [l] :=
      (List.perm_ext_iff_of_nodup hs (by simp)).2 (by simpa using hleaf)
    rw [hobj, harr, hleaves.eq_singleton]
    rfl

theorem isDegenerate_of_equiv {a b : Shape} (ha : a.leaves.Nodup) (hb : b.leaves.Nodup)
    (h : a.equiv b) : a.isDegenerate = b.isDegenerate := by
  rw [Bool.eq_iff_iff, isDegenerate_iff, isDegenerate_iff, eq_leaf_iff ha, eq_leaf_iff ha,
    eq_leaf_iff hb, eq_leaf_iff hb]
  simp only [mem_kinds_of_equiv h]

/-- **Equivalent shapes have equivalent normal forms.** -/
theorem equiv_normalize {a b : Shape} (ha : a.Formed) (hb : b.Formed) (h : a.equiv b) :
    a.normalize.equiv b.normalize := by
  induction ha generalizing b with
  | intro here hf hx ihf ihx =>
    rename_i a
    have hdeg := isDegenerate_of_equiv here.leaves hb.here.leaves h
    by_cases hd : a.isDegenerate
    · rw [normalize_of_isDegenerate hd, normalize_of_isDegenerate (hdeg ▸ hd)]
      rfl
    have hd' : ¬ b.isDegenerate := hdeg ▸ hd
    rw [normalize_eq hd, normalize_eq hd']
    refine equiv_iff.2 ⟨(equiv_iff.1 h).1, ?_, ?_⟩
    · cases hfs : a.fields with
      | none =>
        rw [fields_eq_none_of_equiv h hfs]
        trivial
      | some fs =>
        obtain ⟨gs, hgs, hn, hagree⟩ := exists_fields_of_equiv h hfs
        rw [hgs]
        refine ⟨fun k => by rw [names_map, names_map]; exact hn k, fun f' hf' => ?_⟩
        obtain ⟨f, hmem, rfl⟩ := List.mem_map.1 hf'
        obtain ⟨t, ht, hft⟩ := hagree f hmem
        refine ⟨t.normalize, ?_, ihf fs hfs f hmem (hb.field hgs (mem_of_field? ht)) hft⟩
        rw [field?_map, ht]
        rfl
    · cases hxs : a.items with
      | none =>
        rw [items_eq_none_of_equiv h hxs]
        trivial
      | some xs =>
        obtain ⟨ys, hys, hxy, hyx⟩ := exists_items_of_equiv h hxs
        rw [hys]
        refine itemsAgree_dedupe ?_ ⟨?_, ?_⟩
        · intro y' hy'
          obtain ⟨y, hy, rfl⟩ := List.mem_map.1 hy'
          exact formed_normalize (hb.item hys hy)
        · intro x' hx'
          obtain ⟨x, hx, rfl⟩ := List.mem_map.1 hx'
          obtain ⟨y, hy, hxy⟩ := hxy x hx
          exact ⟨y.normalize, List.mem_map_of_mem hy, ihx xs hxs x hx (hb.item hys hy) hxy⟩
        · intro y' hy'
          obtain ⟨y, hy, rfl⟩ := List.mem_map.1 hy'
          obtain ⟨x, hx, hxy⟩ := hyx y hy
          exact ⟨x.normalize, List.mem_map_of_mem hx, ihx xs hxs x hx (hb.item hys hy) hxy⟩

end Shape
end SampleShape
