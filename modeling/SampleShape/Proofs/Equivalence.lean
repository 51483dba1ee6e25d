/-
# Equivalence is an equivalence relation

`Shape.equiv` looks up the fields of its first argument in the second and goes
through two lists of items both ways.  `equiv_iff` says this without tables and
loops.  From it follow reflexivity and symmetry, for shapes whose field names are
distinct, and transitivity, for all shapes.

`dedupe` keeps shapes of its list only (`mem_of_mem_dedupe`), one for each shape
of the list (`exists_mem_dedupe`), and no two that are equivalent
(`pairwise_dedupe`).
-/

import SampleShape.Proofs.Parts

namespace SampleShape
namespace Shape

/-- Whether both sides have fields, with the same names and equivalent shapes under
each of them, or neither has. -/
def FieldsAgree : Option (List (Text × Shape)) → Option (List (Text × Shape)) → Prop
  | none, none => True
  | some fs, some gs => (∀ k, k ∈ names fs ↔ k ∈ names gs) ∧
      ∀ f ∈ fs, ∃ t, field? f.1 gs = some t ∧ f.2.equiv t
  | _, _ => False

/-- Whether both sides have items, each with an equivalent one on the other side, or
neither has. -/
def ItemsAgree : Option (List Shape) → Option (List Shape) → Prop
  | none, none => True
  | some xs, some ys => (∀ x ∈ xs, ∃ y ∈ ys, x.equiv y) ∧ ∀ y ∈ ys, ∃ x ∈ xs, x.equiv y
  | _, _ => False

theorem sameNames_iff {fs gs : List (Text × Shape)} :
    sameNames fs gs = true ↔ ∀ k, k ∈ names fs ↔ k ∈ names gs := by
  simp only [sameNames, Bool.and_eq_true, List.all_eq_true, hasField_iff]
  constructor
  · rintro ⟨hfg, hgf⟩ k
    simp only [names, List.mem_map]
    constructor
    · rintro ⟨f, hf, rfl⟩
      exact List.mem_map.1 (hfg f hf)
    · rintro ⟨g, hg, rfl⟩
      exact List.mem_map.1 (hgf g hg)
  · intro h
    exact ⟨fun f hf => (h f.1).1 (List.mem_map_of_mem hf),
      fun g hg => (h g.1).2 (List.mem_map_of_mem hg)⟩

theorem equivFields_iff {fs gs : List (Text × Shape)} :
    equivFields fs gs = true ↔ ∀ f ∈ fs, ∃ t, field? f.1 gs = some t ∧ f.2.equiv t := by
  rw [equivFields_eq_all, List.all_eq_true]
  simp only [Option.any_eq_true]

theorem hitsAll_iff {xs ys : List Shape} :
    hitsAll ys (equivRows xs ys) = true ↔
      (∀ x ∈ xs, ∃ y ∈ ys, x.equiv y) ∧ ∀ y ∈ ys, ∃ x ∈ xs, x.equiv y := by
  rw [hitsAll_equivRows]
  simp only [Bool.and_eq_true, List.all_eq_true, List.any_eq_true]

/-- **Equivalence part by part:** the same leaf kinds, agreeing fields and agreeing
items. -/
theorem equiv_iff {a b : Shape} :
    a.equiv b = true ↔ (∀ l, l ∈ a.leaves ↔ l ∈ b.leaves) ∧ FieldsAgree a.fields b.fields ∧
      ItemsAgree a.items b.items := by
  obtain ⟨ls, fields, items⟩ := a
  obtain ⟨ms, fields', items'⟩ := b
  have hleaves : (ls.all (· ∈ ms) && ms.all (· ∈ ls)) = true ↔ ∀ l, l ∈ ls ↔ l ∈ ms := by
    simp only [Bool.and_eq_true, List.all_eq_true, decide_eq_true_eq]
    exact ⟨fun h l => ⟨h.1 l, h.2 l⟩, fun h => ⟨fun l => (h l).1, fun l => (h l).2⟩⟩
  unfold equiv
  rw [Bool.and_eq_true, Bool.and_eq_true, hleaves, and_assoc]
  refine and_congr_right fun _ => and_congr ?_ ?_
  · cases fields <;> cases fields' <;>
      simp only [FieldsAgree, Bool.false_eq_true, Bool.and_eq_true, sameNames_iff, equivFields_iff]
  · cases items <;> cases items' <;> simp only [ItemsAgree, Bool.false_eq_true, hitsAll_iff]

/-! ### What equivalent shapes share -/

variable {a b : Shape}

theorem mem_leaves_of_equiv (h : a.equiv b) (l : Leaf) : l ∈ a.leaves ↔ l ∈ b.leaves :=
  (equiv_iff.1 h).1 l

theorem isObject_of_equiv (h : a.equiv b) : a.isObject = b.isObject := by
  have hf := (equiv_iff.1 h).2.1
  rw [isObject, isObject]
  cases ha : a.fields <;> cases hb : b.fields <;> simp_all [FieldsAgree]

theorem isArray_of_equiv (h : a.equiv b) : a.isArray = b.isArray := by
  have hx := (equiv_iff.1 h).2.2
  rw [isArray, isArray]
  cases ha : a.items <;> cases hb : b.items <;> simp_all [ItemsAgree]

theorem fields_eq_none_of_equiv (h : a.equiv b) (hs : a.fields = none) : b.fields = none := by
  have hf := (equiv_iff.1 h).2.1
  rw [hs] at hf
  cases hb : b.fields with
  | none => rfl
  | some gs => rw [hb] at hf; exact hf.elim

theorem items_eq_none_of_equiv (h : a.equiv b) (hs : a.items = none) : b.items = none := by
  have hx := (equiv_iff.1 h).2.2
  rw [hs] at hx
  cases hb : b.items with
  | none => rfl
  | some ys => rw [hb] at hx; exact hx.elim

/-- The fields of the second shape are there when those of the first are. -/
theorem exists_fields_of_equiv (h : a.equiv b) {fs : List (Text × Shape)}
    (hs : a.fields = some fs) : ∃ gs, b.fields = some gs ∧ (∀ k, k ∈ names fs ↔ k ∈ names gs) ∧
      ∀ f ∈ fs, ∃ t, field? f.1 gs = some t ∧ f.2.equiv t := by
  have hf := (equiv_iff.1 h).2.1
  rw [hs] at hf
  cases hb : b.fields with
  | none => rw [hb] at hf; exact hf.elim
  | some gs => rw [hb] at hf; exact ⟨gs, rfl, hf⟩

/-- The items of the second shape are there when those of the first are. -/
theorem exists_items_of_equiv (h : a.equiv b) {xs : List Shape} (hs : a.items = some xs) :
    ∃ ys, b.items = some ys ∧ (∀ x ∈ xs, ∃ y ∈ ys, x.equiv y) ∧
      ∀ y ∈ ys, ∃ x ∈ xs, x.equiv y := by
  have hx := (equiv_iff.1 h).2.2
  rw [hs] at hx
  cases hb : b.items with
  | none => rw [hb] at hx; exact hx.elim
  | some ys => rw [hb] at hx; exact ⟨ys, rfl, hx⟩

/-- Under each name, equivalent shapes have both no field, or both one, with
equivalent shapes. -/
theorem field?_of_equiv (h : a.equiv b) {fs gs : List (Text × Shape)} (ha : a.fields = some fs)
    (hb : b.fields = some gs) (k : Text) :
    (field? k fs = none ∧ field? k gs = none) ∨
      ∃ s t, field? k fs = some s ∧ field? k gs = some t ∧ s.equiv t := by
  obtain ⟨gs', hb', hn, hf⟩ := exists_fields_of_equiv h ha
  obtain rfl : gs' = gs := Option.some.inj (hb'.symm.trans hb)
  cases hk : field? k fs with
  | none =>
    refine Or.inl ⟨rfl, field?_eq_none_iff.2 fun hmem => ?_⟩
    exact field?_eq_none_iff.1 hk ((hn k).2 hmem)
  | some s =>
    obtain ⟨t, ht, hst⟩ := hf (k, s) (mem_of_field? hk)
    exact Or.inr ⟨s, t, rfl, ht, hst⟩

/-- What is said of the fields of equivalent shapes by names and equivalent shapes is
said of both. -/
theorem exists_fields_congr {P : List (Text × Shape) → Prop} (h : a.equiv b)
    (hP : ∀ fs gs, a.fields = some fs → b.fields = some gs → (P fs ↔ P gs)) :
    (∃ fs, a.fields = some fs ∧ P fs) ↔ ∃ gs, b.fields = some gs ∧ P gs := by
  cases hfs : a.fields with
  | none => simp [fields_eq_none_of_equiv h hfs]
  | some fs =>
    obtain ⟨gs, hgs, -, -⟩ := exists_fields_of_equiv h hfs
    simp only [hgs, Option.some.injEq, exists_eq_left', hP fs gs hfs hgs]

/-- What is said of the items of equivalent shapes by equivalent shapes is said of
both. -/
theorem exists_items_congr {P : List Shape → Prop} (h : a.equiv b)
    (hP : ∀ xs ys, (∀ x ∈ xs, ∃ y ∈ ys, x.equiv y) → (∀ y ∈ ys, ∃ x ∈ xs, x.equiv y) →
      (P xs ↔ P ys)) :
    (∃ xs, a.items = some xs ∧ P xs) ↔ ∃ ys, b.items = some ys ∧ P ys := by
  cases hxs : a.items with
  | none => simp [items_eq_none_of_equiv h hxs]
  | some xs =>
    obtain ⟨ys, hys, hxy, hyx⟩ := exists_items_of_equiv h hxs
    simp only [hys, Option.some.injEq, exists_eq_left', hP xs ys hxy hyx]

theorem mem_kinds_iff {s : Shape} {k : Kind} :
    k ∈ s.kinds ↔ match k with
      | .leaf l => l ∈ s.leaves
      | .object => s.isObject = true
      | .array => s.isArray = true := by
  cases k <;> simp [kinds, Kind.all]

theorem mem_kinds_of_equiv (h : a.equiv b) (k : Kind) : k ∈ a.kinds ↔ k ∈ b.kinds := by
  rw [mem_kinds_iff, mem_kinds_iff]
  cases k with
  | leaf l => exact mem_leaves_of_equiv h l
  | object => rw [isObject_of_equiv h]
  | array => rw [isArray_of_equiv h]

/-! ### The three laws -/

/-- **Equivalence is reflexive** on shapes with distinct field names. -/
theorem equiv_refl {a : Shape} (ha : a.Formed) : a.equiv a := by
  induction ha with
  | intro here _ _ ihf ihx =>
    rename_i s _ _
    refine equiv_iff.2 ⟨fun _ => Iff.rfl, ?_, ?_⟩
    · cases hs : s.fields with
      | none => trivial
      | some fs =>
        refine ⟨fun _ => Iff.rfl, fun f hf => ?_⟩
        exact ⟨f.2, field?_of_mem (here.names fs hs) hf, ihf fs hs f hf⟩
    · cases hs : s.items with
      | none => trivial
      | some xs => exact ⟨fun x hx => ⟨x, hx, ihx xs hs x hx⟩, fun x hx => ⟨x, hx, ihx xs hs x hx⟩⟩

/-- **Equivalence is symmetric** where the field names of the second shape are
distinct. -/
theorem equiv_symm {a b : Shape} (hb : b.Formed) (h : a.equiv b) : b.equiv a := by
  induction hb generalizing a with
  | intro here _ _ ihf ihx =>
    rename_i s _ _
    obtain ⟨hl, hf, hx⟩ := equiv_iff.1 h
    refine equiv_iff.2 ⟨fun l => (hl l).symm, ?_, ?_⟩
    · cases hs : s.fields with
      | none => cases ha : a.fields <;> simp_all [FieldsAgree]
      | some gs =>
        cases ha : a.fields with
        | none => simp_all [FieldsAgree]
        | some fs =>
          rw [hs, ha] at hf
          refine ⟨fun k => (hf.1 k).symm, fun g hg => ?_⟩
          -- the field of the first shape under the same name is the one that `g` answers
          have hg' := field?_of_mem (here.names gs hs) hg
          rcases field?_of_equiv h ha hs g.1 with ⟨-, hnone⟩ | ⟨t, u, ht, hu, htu⟩
          · rw [hnone] at hg'
            cases hg'
          · obtain rfl : u = g.2 := Option.some.inj (hu.symm.trans hg')
            exact ⟨t, ht, ihf gs hs g hg htu⟩
    · cases hs : s.items with
      | none => cases ha : a.items <;> simp_all [ItemsAgree]
      | some ys =>
        cases ha : a.items with
        | none => simp_all [ItemsAgree]
        | some xs =>
          rw [hs, ha] at hx
          refine ⟨fun y hy => ?_, fun x hx' => ?_⟩
          · obtain ⟨x, hx', hxy⟩ := hx.2 y hy
            exact ⟨x, hx', ihx ys hs y hy hxy⟩
          · obtain ⟨y, hy, hxy⟩ := hx.1 x hx'
            exact ⟨y, hy, ihx ys hs y hy hxy⟩

/-- **Equivalence is transitive.** -/
theorem equiv_trans {a b c : Shape} (hab : a.equiv b) (hbc : b.equiv c) : a.equiv c := by
  induction a using Shape.induct generalizing b c with
  | step a ihf ihx =>
    refine equiv_iff.2 ⟨fun l => ?_, ?_, ?_⟩
    · exact (mem_leaves_of_equiv hab l).trans (mem_leaves_of_equiv hbc l)
    · cases ha : a.fields with
      | none =>
        rw [fields_eq_none_of_equiv hbc (fields_eq_none_of_equiv hab ha)]
        trivial
      | some fs =>
        obtain ⟨gs, hb, hn, hf⟩ := exists_fields_of_equiv hab ha
        obtain ⟨hs, hc, hn', hf'⟩ := exists_fields_of_equiv hbc hb
        rw [hc]
        refine ⟨fun k => (hn k).trans (hn' k), fun f hmem => ?_⟩
        obtain ⟨t, ht, hft⟩ := hf f hmem
        obtain ⟨u, hu, htu⟩ := hf' (f.1, t) (mem_of_field? ht)
        exact ⟨u, hu, ihf fs ha f hmem hft htu⟩
    · cases ha : a.items with
      | none =>
        rw [items_eq_none_of_equiv hbc (items_eq_none_of_equiv hab ha)]
        trivial
      | some xs =>
        obtain ⟨ys, hb, hxy, hyx⟩ := exists_items_of_equiv hab ha
        obtain ⟨zs, hc, hyz, hzy⟩ := exists_items_of_equiv hbc hb
        rw [hc]
        refine ⟨fun x hx => ?_, fun z hz => ?_⟩
        · obtain ⟨y, hy, h₁⟩ := hxy x hx
          obtain ⟨z, hz, h₂⟩ := hyz y hy
          exact ⟨z, hz, ihx xs ha x hx h₁ h₂⟩
        · obtain ⟨y, hy, h₂⟩ := hzy z hz
          obtain ⟨x, hx, h₁⟩ := hyx y hy
          exact ⟨x, hx, ihx xs ha x hx h₁ h₂⟩

/-! ### Keeping one shape of each class -/

theorem mem_of_mem_dedupeOnto {s : Shape} :
    ∀ {kept shapes : List Shape}, s ∈ dedupeOnto kept shapes → s ∈ kept ∨ s ∈ shapes
  | _, [], h => Or.inl h
  | kept, t :: rest, h => by
      rw [dedupeOnto] at h
      split at h
      · exact (mem_of_mem_dedupeOnto h).imp_right (List.mem_cons_of_mem t)
      · rcases mem_of_mem_dedupeOnto h with h | h
        · rcases List.mem_append.1 h with h | h
          · exact Or.inl h
          · exact Or.inr (List.mem_singleton.1 h ▸ List.mem_cons_self)
        · exact Or.inr (List.mem_cons_of_mem t h)

/-- What is kept comes from the list. -/
theorem mem_of_mem_dedupe {s : Shape} {shapes : List Shape} (h : s ∈ dedupe shapes) :
    s ∈ shapes :=
  (mem_of_mem_dedupeOnto h).resolve_left List.not_mem_nil

theorem mem_dedupeOnto {s : Shape} :
    ∀ {kept : List Shape} (shapes : List Shape), s ∈ kept → s ∈ dedupeOnto kept shapes
  | _, [], h => h
  | kept, t :: rest, h => by
      rw [dedupeOnto]
      split
      · exact mem_dedupeOnto rest h
      · exact mem_dedupeOnto rest (List.mem_append_left _ h)

theorem exists_mem_dedupeOnto {s : Shape} :
    ∀ (kept : List Shape) {shapes : List Shape}, s ∈ shapes →
      ∃ t ∈ dedupeOnto kept shapes, t = s ∨ t.equiv s
  | kept, t :: rest, h => by
      rw [dedupeOnto]
      rcases List.mem_cons.1 h with rfl | h
      · split
        · rename_i hany
          obtain ⟨u, hu, hus⟩ := List.any_eq_true.1 hany
          exact ⟨u, mem_dedupeOnto rest hu, Or.inr hus⟩
        · exact ⟨s, mem_dedupeOnto rest (by simp), Or.inl rfl⟩
      · split
        · exact exists_mem_dedupeOnto kept h
        · exact exists_mem_dedupeOnto (kept ++ [t]) h

/-- Every shape of the list is kept, or an equivalent one in its place. -/
theorem exists_mem_dedupe {s : Shape} {shapes : List Shape} (h : s ∈ shapes) :
    ∃ t ∈ dedupe shapes, t = s ∨ t.equiv s :=
  exists_mem_dedupeOnto [] h

theorem pairwise_dedupeOnto :
    ∀ {kept : List Shape} (shapes : List Shape), kept.Pairwise (fun x y => ¬ x.equiv y) →
      (dedupeOnto kept shapes).Pairwise fun x y => ¬ x.equiv y
  | _, [], h => h
  | kept, t :: rest, h => by
      rw [dedupeOnto]
      split
      · exact pairwise_dedupeOnto rest h
      · rename_i hany
        refine pairwise_dedupeOnto rest ?_
        refine List.pairwise_append.2 ⟨h, List.pairwise_singleton _ _, ?_⟩
        intro x hx y hy hxy
        rw [List.mem_singleton.1 hy] at hxy
        exact hany (List.any_eq_true.2 ⟨x, hx, hxy⟩)

/-- No two shapes that are kept are equivalent. -/
theorem pairwise_dedupe (shapes : List Shape) :
    (dedupe shapes).Pairwise fun x y => ¬ x.equiv y :=
  pairwise_dedupeOnto shapes List.Pairwise.nil

theorem dedupeOnto_sublist :
    ∀ (kept shapes : List Shape), (dedupeOnto kept shapes).Sublist (kept ++ shapes)
  | kept, [] => List.sublist_append_left kept []
  | kept, s :: rest => by
      rw [dedupeOnto]
      split
      · exact (dedupeOnto_sublist kept rest).trans
          ((List.Sublist.refl kept).append (List.sublist_cons_self s rest))
      · have h := dedupeOnto_sublist (kept ++ [s]) rest
        rwa [List.append_assoc] at h

/-- What is kept stays in order. -/
theorem dedupe_sublist (shapes : List Shape) : (dedupe shapes).Sublist shapes :=
  dedupeOnto_sublist [] shapes

theorem dedupeOnto_eq_append :
    ∀ {kept shapes : List Shape}, (kept ++ shapes).Pairwise (fun x y => ¬ x.equiv y) →
      dedupeOnto kept shapes = kept ++ shapes
  | kept, [], _ => by rw [dedupeOnto, List.append_nil]
  | kept, s :: rest, h => by
      have hnew : ¬ kept.any (·.equiv s) := by
        intro hany
        obtain ⟨t, ht, hts⟩ := List.any_eq_true.1 hany
        exact (List.pairwise_append.1 h).2.2 t ht s List.mem_cons_self hts
      rw [dedupeOnto, if_neg hnew, dedupeOnto_eq_append, List.append_assoc]
      · rfl
      · rwa [List.append_assoc]

/-- Nothing is dropped exactly from a list without equivalent shapes. -/
theorem dedupe_eq_self_iff {shapes : List Shape} :
    dedupe shapes = shapes ↔ shapes.Pairwise fun x y => ¬ x.equiv y :=
  ⟨fun h => h ▸ pairwise_dedupe shapes,
    fun h => show dedupeOnto [] shapes = [] ++ shapes from dedupeOnto_eq_append h⟩

theorem dedupe_ne_nil {shapes : List Shape} (h : shapes ≠ []) : dedupe shapes ≠ [] := by
  obtain ⟨s, hs⟩ := List.exists_mem_of_ne_nil shapes h
  obtain ⟨t, ht, -⟩ := exists_mem_dedupe hs
  exact List.ne_nil_of_mem ht

/-- Something that equivalent shapes have in common holds of a kept shape exactly
when it holds of a shape of the list. -/
theorem exists_mem_dedupe_iff {P : Shape → Prop} (hP : ∀ {s t : Shape}, s.equiv t → (P s ↔ P t))
    {shapes : List Shape} : (∃ s ∈ dedupe shapes, P s) ↔ ∃ s ∈ shapes, P s := by
  constructor
  · rintro ⟨s, hs, h⟩
    exact ⟨s, mem_of_mem_dedupe hs, h⟩
  · rintro ⟨s, hs, h⟩
    obtain ⟨t, ht, rfl | hts⟩ := exists_mem_dedupe hs
    · exact ⟨t, ht, h⟩
    · exact ⟨t, ht, (hP hts).2 h⟩

end Shape
end SampleShape
