/-
# The order of keys

Two samples that differ only in the order in which their mappings list their keys, at any
depth, are seen as the same sample: what is inferred from the one list and from the other
is the same up to the order of fields (`infer_keysMoved`).

Equivalence is too coarse for the argument.  A join looks at the order of items, and shapes
that are merely equivalent may be joined to shapes that are not.  Shapes that are *alike*
(`Alike`) have the same leaf kinds in the same order and items that are alike one by one;
only fields may stand in another order.  Every test on the way (whether two shapes are
equivalent, an item is the placeholder, or has fields) comes out the same for shapes that
are alike, so both runs take the same branches: `dedupe` keeps items at the same places
(`forall₂_dedupe`), and joins and normal forms of shapes that are alike are alike again
(`twins_join`, `twins_normalize`).
-/

import Mathlib.Data.List.Forall2
import Mathlib.Data.List.Nodup
import Mathlib.Data.List.Perm.Basic
import Mathlib.Logic.Relation
import SampleShape.Proofs.Validity

namespace SampleShape
namespace Shape

mutual

/-- Whether two shapes are the same up to the order of fields, at every depth: the same
leaf kinds in the same order, the same field names with shapes alike, and items that are
alike one by one. -/
def Alike : Shape → Shape → Prop
  | ⟨leaves, fields, items⟩, b =>
    leaves = b.leaves ∧
    (match fields, b.fields with
      | none, none => True
      | some fs, some gs => (names fs).Perm (names gs) ∧ FieldsAlike fs gs
      | _, _ => False) ∧
    (match items, b.items with
      | none, none => True
      | some xs, some ys => ItemsAlike xs ys
      | _, _ => False)
termination_by structural a => a

/-- Whether each field has one of its name on the other side, with a shape alike. -/
def FieldsAlike : List (Text × Shape) → List (Text × Shape) → Prop
  | [], _ => True
  | (name, s) :: rest, gs => (∃ t, field? name gs = some t ∧ s.Alike t) ∧ FieldsAlike rest gs
termination_by structural fs => fs

/-- Whether items are alike one by one. -/
def ItemsAlike : List Shape → List Shape → Prop
  | [], ys => ys = []
  | x :: xs, ys => ∃ y rest, ys = y :: rest ∧ x.Alike y ∧ ItemsAlike xs rest
termination_by structural xs => xs

end

/-- Whether two lists of fields have the same names, with shapes alike under each. -/
def FieldsCorrespond (fs gs : List (Text × Shape)) : Prop :=
  (names fs).Perm (names gs) ∧ ∀ f ∈ fs, ∃ t, field? f.1 gs = some t ∧ f.2.Alike t

theorem fieldsAlike_iff {fs gs : List (Text × Shape)} :
    FieldsAlike fs gs ↔ ∀ f ∈ fs, ∃ t, field? f.1 gs = some t ∧ f.2.Alike t := by
  induction fs with
  | nil => simp [FieldsAlike]
  | cons f rest ih => rw [FieldsAlike, ih, List.forall_mem_cons]

theorem itemsAlike_iff {xs ys : List Shape} : ItemsAlike xs ys ↔ List.Forall₂ Alike xs ys := by
  induction xs generalizing ys with
  | nil => rw [ItemsAlike, List.forall₂_nil_left_iff]
  | cons x xs ih =>
    rw [ItemsAlike, List.forall₂_cons_left_iff]
    simp only [ih]
    constructor
    · rintro ⟨y, rest, rfl, hxy, hrest⟩
      exact ⟨y, rest, hxy, hrest, rfl⟩
    · rintro ⟨y, rest, hxy, hrest, rfl⟩
      exact ⟨y, rest, rfl, hxy, hrest⟩

/-- **Likeness part by part.** -/
theorem alike_iff {a b : Shape} :
    a.Alike b ↔ a.leaves = b.leaves ∧ Option.Rel FieldsCorrespond a.fields b.fields ∧
      Option.Rel (List.Forall₂ Alike) a.items b.items := by
  obtain ⟨ls, fields, items⟩ := a
  obtain ⟨ms, fields', items'⟩ := b
  unfold Alike
  refine and_congr_right fun _ => and_congr ?_ ?_
  · cases fields <;> cases fields' <;> simp [FieldsCorrespond, fieldsAlike_iff]
  · cases items <;> cases items' <;> simp [itemsAlike_iff]

/-- Two contents in a relation are both there, or neither is. -/
theorem rel_cases {α : Type} {r : α → α → Prop} {x? y? : Option α} (h : Option.Rel r x? y?) :
    (x? = none ∧ y? = none) ∨ ∃ x y, x? = some x ∧ y? = some y ∧ r x y := by
  cases h with
  | none => exact Or.inl ⟨rfl, rfl⟩
  | some h => exact Or.inr ⟨_, _, rfl, rfl, h⟩

theorem exists_mem_of_forall₂ {α : Type} {r : α → α → Prop} {xs ys : List α}
    (h : List.Forall₂ r xs ys) : (∀ x ∈ xs, ∃ y ∈ ys, r x y) ∧ ∀ y ∈ ys, ∃ x ∈ xs, r x y := by
  induction h with
  | nil => exact ⟨nofun, nofun⟩
  | cons h _ ih =>
    simp only [List.forall_mem_cons, List.exists_mem_cons_iff]
    exact ⟨⟨Or.inl h, fun x hx => Or.inr (ih.1 x hx)⟩, Or.inl h, fun y hy => Or.inr (ih.2 y hy)⟩

/-- Lists related element by element compose where the relation does at the elements of
the first. -/
theorem forall₂_trans {α : Type} {r : α → α → Prop} {xs ys zs : List α}
    (hr : ∀ x ∈ xs, ∀ y z, r x y → r y z → r x z) (hxy : List.Forall₂ r xs ys)
    (hyz : List.Forall₂ r ys zs) : List.Forall₂ r xs zs := by
  induction hxy generalizing zs with
  | nil => exact hyz
  | cons h _ ih =>
    rw [List.forall_mem_cons] at hr
    cases hyz with
    | cons h' hyz => exact .cons (hr.1 _ _ h h') (ih hr.2 hyz)

theorem rel_joinContent {α : Type} {r : α → α → Prop} {f : α → α → α}
    {x? x'? y? y'? : Option α} (hx : Option.Rel r x? x'?) (hy : Option.Rel r y? y'?)
    (hf : ∀ x x' y y', x? = some x → x'? = some x' → y? = some y → y'? = some y' →
      r x x' → r y y' → r (f x y) (f x' y')) :
    Option.Rel r (joinContent f x? y?) (joinContent f x'? y'?) := by
  cases hx with
  | none => exact hy
  | some hx =>
    cases hy with
    | none => exact .some hx
    | some hy => exact .some (hf _ _ _ _ rfl rfl rfl rfl hx hy)

/-! ### Shapes alike -/

theorem alike_refl {a : Shape} (ha : a.Formed) : a.Alike a := by
  induction ha with
  | intro here _ _ ihf ihx =>
    rename_i s _ _
    refine alike_iff.2 ⟨rfl, ?_, ?_⟩
    · cases hs : s.fields with
      | none => exact .none
      | some fs =>
        refine .some ⟨.refl _, fun f hf => ?_⟩
        exact ⟨f.2, field?_of_mem (here.names fs hs) hf, ihf fs hs f hf⟩
    · cases hs : s.items with
      | none => exact .none
      | some xs => exact .some (List.forall₂_same.2 (ihx xs hs))

/-- Under each name, fields that correspond are both missing, or both there and alike. -/
theorem FieldsCorrespond.field? {fs gs : List (Text × Shape)} (h : FieldsCorrespond fs gs)
    (k : Text) : (field? k fs = none ∧ field? k gs = none) ∨
      ∃ s t, field? k fs = some s ∧ field? k gs = some t ∧ s.Alike t := by
  cases hs : Shape.field? k fs with
  | none =>
    refine Or.inl ⟨rfl, field?_eq_none_iff.2 fun hk => ?_⟩
    exact field?_eq_none_iff.1 hs (h.1.mem_iff.2 hk)
  | some s =>
    obtain ⟨t, ht, hst⟩ := h.2 (k, s) (mem_of_field? hs)
    exact Or.inr ⟨s, t, rfl, ht, hst⟩

theorem alike_trans {a b c : Shape} (hab : a.Alike b) (hbc : b.Alike c) : a.Alike c := by
  induction a using Shape.induct generalizing b c with
  | step a ihf ihx =>
    obtain ⟨hl, hf, hx⟩ := alike_iff.1 hab
    obtain ⟨hl', hf', hx'⟩ := alike_iff.1 hbc
    refine alike_iff.2 ⟨hl.trans hl', ?_, ?_⟩
    · rcases rel_cases hf with ⟨ha, hb⟩ | ⟨fs, gs, ha, hb, hfg⟩
      · rwa [ha, ← hb]
      rcases rel_cases hf' with ⟨hb', -⟩ | ⟨gs', hs, hb', hc, hgh⟩
      · cases hb.symm.trans hb'
      obtain rfl : gs = gs' := Option.some.inj (hb.symm.trans hb')
      rw [ha, hc]
      refine .some ⟨hfg.1.trans hgh.1, fun f hmem => ?_⟩
      obtain ⟨t, ht, hft⟩ := hfg.2 f hmem
      obtain ⟨u, hu, htu⟩ := hgh.2 (f.1, t) (mem_of_field? ht)
      exact ⟨u, hu, ihf fs ha f hmem hft htu⟩
    · rcases rel_cases hx with ⟨ha, hb⟩ | ⟨xs, ys, ha, hb, hxy⟩
      · rwa [ha, ← hb]
      rcases rel_cases hx' with ⟨hb', -⟩ | ⟨ys', zs, hb', hc, hyz⟩
      · cases hb.symm.trans hb'
      obtain rfl : ys = ys' := Option.some.inj (hb.symm.trans hb')
      rw [ha, hc]
      have ih := ihx xs ha
      exact .some (forall₂_trans (fun x hx _ _ => ih x hx) hxy hyz)

/-- **Shapes alike are equivalent.** -/
theorem Alike.equiv {a b : Shape} (h : a.Alike b) : a.equiv b := by
  induction a using Shape.induct generalizing b with
  | step a ihf ihx =>
    obtain ⟨hl, hf, hx⟩ := alike_iff.1 h
    refine equiv_iff.2 ⟨fun l => by rw [hl], ?_, ?_⟩
    · rcases rel_cases hf with ⟨ha, hb⟩ | ⟨fs, gs, ha, hb, hfg⟩
      · rw [ha, hb]
        trivial
      · rw [ha, hb]
        refine ⟨fun k => hfg.1.mem_iff, fun f hmem => ?_⟩
        obtain ⟨t, ht, hft⟩ := hfg.2 f hmem
        exact ⟨t, ht, ihf fs ha f hmem hft⟩
    · rcases rel_cases hx with ⟨ha, hb⟩ | ⟨xs, ys, ha, hb, hxy⟩
      · rw [ha, hb]
        trivial
      · rw [ha, hb]
        have hsides := exists_mem_of_forall₂ ((List.forall₂_and_left xs ys).2 ⟨fun _ hx => hx, hxy⟩)
        refine ⟨fun x hx => ?_, fun y hy => ?_⟩
        · obtain ⟨y, hy, hxy⟩ := hsides.1 x hx
          exact ⟨y, hy, ihx xs ha x hx hxy.2⟩
        · obtain ⟨x, hx, hxy⟩ := hsides.2 y hy
          exact ⟨x, hx, ihx xs ha x hx hxy.2⟩

theorem Alike.eq_leaf_iff {a b : Shape} (h : a.Alike b) (l : Leaf) : a = leaf l ↔ b = leaf l := by
  obtain ⟨ls, fields, items⟩ := a
  obtain ⟨ms, fields', items'⟩ := b
  obtain ⟨hl, hf, hx⟩ := alike_iff.1 h
  cases hf <;> cases hx <;> simp_all [leaf]

theorem Alike.isPlaceholder {a b : Shape} (h : a.Alike b) : a.isPlaceholder = b.isPlaceholder := by
  have hiff : ∀ s : Shape, s.isPlaceholder = true ↔ s = leaf .unknown := fun s =>
    ⟨eq_unknown_of_isPlaceholder, fun hs => hs ▸ rfl⟩
  rw [Bool.eq_iff_iff, hiff, hiff, h.eq_leaf_iff]

theorem Alike.isDegenerate {a b : Shape} (h : a.Alike b) : a.isDegenerate = b.isDegenerate := by
  rw [Bool.eq_iff_iff, isDegenerate_iff, isDegenerate_iff, h.eq_leaf_iff, h.eq_leaf_iff]

theorem Alike.withLeaf {a b : Shape} (h : a.Alike b) (l : Leaf) :
    (a.withLeaf l).Alike (b.withLeaf l) := by
  obtain ⟨hl, hf, hx⟩ := alike_iff.1 h
  refine alike_iff.2 ⟨?_, ?_, ?_⟩
  · unfold Shape.withLeaf
    rw [hl]
    split
    · exact hl
    · rfl
  · rwa [withLeaf_fields, withLeaf_fields]
  · rwa [withLeaf_items, withLeaf_items]

/-! ### Both runs take the same branches -/

/-- Two formed shapes that are alike. -/
structure Twins (a b : Shape) : Prop where
  left : a.Formed
  right : b.Formed
  alike : a.Alike b

theorem formed_unknown : unknown.Formed := Everywhere.unknown formedHere_unknown

theorem twins_refl {a : Shape} (ha : a.Formed) : Twins a a := ⟨ha, ha, alike_refl ha⟩

/-- **Shapes alike are told apart alike.** -/
theorem equiv_of_twins {a a' b b' : Shape} (ha : Twins a a') (hb : Twins b b') :
    a.equiv b = a'.equiv b' := by
  rw [Bool.eq_iff_iff]
  constructor
  · intro h
    exact equiv_trans (equiv_symm ha.right ha.alike.equiv) (equiv_trans h hb.alike.equiv)
  · intro h
    exact equiv_trans ha.alike.equiv (equiv_trans h (equiv_symm hb.right hb.alike.equiv))

/-- Items alike one by one are twins, if all are formed. -/
theorem forall₂_twins {xs ys : List Shape} (h : List.Forall₂ Alike xs ys)
    (hx : ∀ x ∈ xs, x.Formed) (hy : ∀ y ∈ ys, y.Formed) : List.Forall₂ Twins xs ys := by
  induction h with
  | nil => exact .nil
  | cons h _ ih =>
    rw [List.forall_mem_cons] at hx hy
    exact .cons ⟨hx.1, hy.1, h⟩ (ih hx.2 hy.2)

section Items

variable {R : Shape → Shape → Prop}

theorem foldl_of_forall₂ {j : Shape → Shape → Shape}
    (hj : ∀ {x x' y y'}, R x x' → R y y' → R (j x y) (j x' y')) {s s' : Shape} (hs : R s s')
    {rest rest' : List Shape} (hrest : List.Forall₂ R rest rest') :
    R (rest.foldl j s) (rest'.foldl j s') := by
  induction hrest generalizing s s' with
  | nil => exact hs
  | cons h _ ih => exact ih (hj hs h)

theorem forall₂_joinRow {j : Shape → Shape → Shape}
    (hj : ∀ {x x' y y'}, R x x' → R y y' → R (j x y) (j x' y')) {row row' : List Shape}
    (h : List.Forall₂ R row row') : List.Forall₂ R (joinRow j row) (joinRow j row') := by
  cases h with
  | nil => exact .nil
  | cons h hrest =>
    rw [joinRow_cons, joinRow_cons]
    exact .cons (foldl_of_forall₂ hj h hrest) .nil

variable (hR : ∀ {x x'}, R x x' → Twins x x')
include hR

theorem any_equiv_of_forall₂ {kept kept' : List Shape} (h : List.Forall₂ R kept kept')
    {s s' : Shape} (hs : R s s') : kept.any (·.equiv s) = kept'.any (·.equiv s') := by
  induction h with
  | nil => rfl
  | cons h _ ih => rw [List.any_cons, List.any_cons, ih, equiv_of_twins (hR h) (hR hs)]

theorem forall₂_dedupeOnto {xs xs' : List Shape} (h : List.Forall₂ R xs xs') :
    ∀ {kept kept' : List Shape}, List.Forall₂ R kept kept' →
      List.Forall₂ R (dedupeOnto kept xs) (dedupeOnto kept' xs') := by
  induction h with
  | nil => exact id
  | cons h _ ih =>
    intro kept kept' hkept
    rw [dedupeOnto, dedupeOnto, any_equiv_of_forall₂ hR hkept h]
    split
    · exact ih hkept
    · exact ih (List.rel_append hkept (.cons h .nil))

/-- The same places are kept. -/
theorem forall₂_dedupe {xs xs' : List Shape} (h : List.Forall₂ R xs xs') :
    List.Forall₂ R (dedupe xs) (dedupe xs') :=
  forall₂_dedupeOnto hR h .nil

theorem forall₂_pool {xs xs' ys ys' : List Shape} (hx : List.Forall₂ R xs xs')
    (hy : List.Forall₂ R ys ys') : List.Forall₂ R (pool xs ys) (pool xs' ys') := by
  refine List.rel_filter (fun x x' h => ?_) (forall₂_dedupe hR (List.rel_append hx hy))
  simp only [(hR h).alike.isPlaceholder]

/-- Both runs pick the same items from the pool, by whether they have fields or items. -/
theorem forall₂_pool_filter {xs xs' ys ys' : List Shape} (hx : List.Forall₂ R xs xs')
    (hy : List.Forall₂ R ys ys') (p : Bool → Bool → Bool) :
    List.Forall₂ R ((pool xs ys).filter fun s => p s.isObject s.isArray)
      ((pool xs' ys').filter fun s => p s.isObject s.isArray) := by
  refine List.rel_filter (fun x x' h => ?_) (forall₂_pool hR hx hy)
  have heq := (hR h).alike.equiv
  simp only [isObject_of_equiv heq, isArray_of_equiv heq]

/-- **Items alike are joined to items alike,** if `j` joins shapes alike to shapes alike. -/
theorem forall₂_joinItems {j : Shape → Shape → Shape}
    (hj : ∀ {x x' y y'}, R x x' → R y y' → R (j x y) (j x' y')) (hunknown : R unknown unknown)
    {xs xs' ys ys' : List Shape} (hx : List.Forall₂ R xs xs') (hy : List.Forall₂ R ys ys') :
    List.Forall₂ R (joinItems j xs ys) (joinItems j xs' ys') := by
  have hempty : (pool xs ys).isEmpty = (pool xs' ys').isEmpty := by
    rw [Bool.eq_iff_iff, List.isEmpty_iff_length_eq_zero, List.isEmpty_iff_length_eq_zero,
      (forall₂_pool hR hx hy).length_eq]
  rw [joinItems_eq, joinItems_eq, hempty]
  split
  · exact .cons hunknown .nil
  · refine List.rel_append (List.rel_append ?_ (forall₂_joinRow hj ?_)) (forall₂_joinRow hj ?_)
    · exact forall₂_pool_filter hR hx hy fun o a => !o && !a
    · exact forall₂_pool_filter hR hx hy fun o _ => o
    · exact forall₂_pool_filter hR hx hy fun o a => a && !o

end Items

/-- **Fields that correspond are joined to fields that correspond,** if `j` joins the shapes
under each name to shapes alike. -/
theorem FieldsCorrespond.joinFields {j : Shape → Shape → Shape}
    {fs fs' gs gs' : List (Text × Shape)} (hfn : (names fs).Nodup) (hgn : (names gs).Nodup)
    (hf : FieldsCorrespond fs fs') (hg : FieldsCorrespond gs gs')
    (hj : ∀ k s s' t t', (k, s) ∈ fs → (k, s') ∈ fs' → (k, t) ∈ gs → (k, t') ∈ gs' →
      s.Alike s' → t.Alike t' → (j s t).Alike (j s' t')) :
    FieldsCorrespond (joinFields j fs gs) (joinFields j fs' gs') := by
  have hnames : ∀ {hs hs'}, FieldsCorrespond hs hs' → ∀ k, hasField k hs = hasField k hs' :=
    fun h k => by rw [Bool.eq_iff_iff, hasField_iff, hasField_iff, h.1.mem_iff]
  constructor
  · rw [names_joinFields, names_joinFields]
    simp only [hnames hf, hnames hg]
    exact (hf.1.filter _).append ((hf.1.filter _).append (hg.1.filter _))
  · intro f hmem
    have hfield := field?_of_mem (nodup_names_joinFields hfn hgn) hmem
    rw [field?_joinFields] at hfield ⊢
    -- both sides have the name in the same of the two lists
    rcases hf.field? f.1 with ⟨h₁, h₁'⟩ | ⟨s, s', h₁, h₁', hs⟩ <;>
      rcases hg.field? f.1 with ⟨h₂, h₂'⟩ | ⟨t, t', h₂, h₂', ht⟩ <;>
      simp only [h₁, h₂, Option.some.injEq, reduceCtorEq] at hfield <;>
      simp only [h₁', h₂', Option.some.injEq, exists_eq_left', ← hfield]
    · exact ht.withLeaf _
    · exact hs.withLeaf _
    · exact hj f.1 s s' t t' (mem_of_field? h₁) (mem_of_field? h₁') (mem_of_field? h₂)
        (mem_of_field? h₂') hs ht

/-! ### Joins and normal forms -/

theorem alike_join {a a' b b' : Shape} (ha : Twins a a') (hb : Twins b b') :
    (a.join b).Alike (a'.join b') := by
  -- items that are joined into one are no parts of `a` and `b`, but they are less deep
  induction a, b using induct₂ generalizing a' b' with
  | step a b ih =>
    have hequiv := equiv_of_twins ha hb
    by_cases h : a.equiv b
    · rw [join_of_equiv h, join_of_equiv (hequiv ▸ h)]
      exact ha.alike
    have h' : ¬ a'.equiv b' := hequiv ▸ h
    obtain ⟨hla, hfa, hxa⟩ := alike_iff.1 ha.alike
    obtain ⟨hlb, hfb, hxb⟩ := alike_iff.1 hb.alike
    rw [join_of_not_equiv h, join_of_not_equiv h']
    refine alike_iff.2 ⟨by simp only [hla, hlb], ?_, ?_⟩
    · refine rel_joinContent hfa hfb fun fs fs' gs gs' hfs hfs' hgs hgs' hff hgg => ?_
      refine hff.joinFields (ha.left.here.names fs hfs) (hb.left.here.names gs hgs) hgg ?_
      intro k s s' t t' hs hs' ht ht' hss htt
      have hds : s.depth < a.depth := depth_lt_of_field hfs hs
      have hdt : t.depth < b.depth := depth_lt_of_field hgs ht
      exact ih s t (by omega) (by omega) ⟨ha.left.field hfs hs, ha.right.field hfs' hs', hss⟩
        ⟨hb.left.field hgs ht, hb.right.field hgs' ht', htt⟩
    · -- the bound is part of the relation, so that it also holds of what is folded so far
      refine rel_joinContent hxa hxb fun xs xs' ys ys' hxs hxs' hys hys' hxx hyy => ?_
      have hx := forall₂_twins hxx (fun _ => ha.left.item hxs) fun _ => ha.right.item hxs'
      have hy := forall₂_twins hyy (fun _ => hb.left.item hys) fun _ => hb.right.item hys'
      have hitems : List.Forall₂ (fun x x' => x.depth < max a.depth b.depth ∧ Twins x x')
          (joinItems join xs ys) (joinItems join xs' ys') := by
        refine forall₂_joinItems And.right ?_ ⟨?_, twins_refl formed_unknown⟩
          ((List.forall₂_and_left xs xs').2 ⟨fun x hx => ?_, hx⟩)
          ((List.forall₂_and_left ys ys').2 ⟨fun y hy => ?_, hy⟩)
        · rintro x x' y y' ⟨hdx, hx⟩ ⟨hdy, hy⟩
          have hdxy := depth_join_le x y
          refine ⟨by omega, formed_join hx.left hy.left, formed_join hx.right hy.right, ?_⟩
          exact ih x y hdx hdy hx hy
        · have hdepth := (depth_le_iff.1 (Nat.le_refl a.depth)).2 xs hxs
          have hzero : unknown.depth = 0 := rfl
          omega
        · have hdx := depth_lt_of_item hxs hx
          omega
        · have hdy := depth_lt_of_item hys hy
          omega
      exact hitems.imp fun _ _ h => h.2.alike

/-- **The joins of shapes alike are alike.** -/
theorem twins_join {a a' b b' : Shape} (ha : Twins a a') (hb : Twins b b') :
    Twins (a.join b) (a'.join b') where
  left := formed_join ha.left hb.left
  right := formed_join ha.right hb.right
  alike := alike_join ha hb

/-- From left to right, the joins of both runs stay alike. -/
theorem twins_joinAll {s s' : Shape} {rest rest' : List Shape} (hs : Twins s s')
    (hrest : List.Forall₂ Twins rest rest') : Twins (joinAll s rest) (joinAll s' rest') := by
  rw [joinAll_eq, joinAll_eq]
  exact foldl_of_forall₂ twins_join hs hrest

/-- **The normal forms of shapes alike are alike.** -/
theorem twins_normalize {a a' : Shape} (h : Twins a a') : Twins a.normalize a'.normalize := by
  refine ⟨formed_normalize h.left, formed_normalize h.right, ?_⟩
  induction a using Shape.induct generalizing a' with
  | step a ihf ihx =>
    have hdegenerate := h.alike.isDegenerate
    by_cases hd : a.isDegenerate
    · rw [normalize_of_isDegenerate hd, normalize_of_isDegenerate (hdegenerate ▸ hd)]
      exact alike_refl formed_unknown
    have hd' : ¬ a'.isDegenerate := hdegenerate ▸ hd
    obtain ⟨hl, hf, hx⟩ := alike_iff.1 h.alike
    rw [normalize_eq hd, normalize_eq hd']
    refine alike_iff.2 ⟨hl, ?_, ?_⟩
    · rcases rel_cases hf with ⟨ha, hb⟩ | ⟨fs, gs, ha, hb, hfg⟩
      · rw [ha, hb]
        exact .none
      rw [ha, hb]
      refine .some ⟨by rw [names_map, names_map]; exact hfg.1, fun g hg => ?_⟩
      obtain ⟨f, hmem, rfl⟩ := List.mem_map.1 hg
      obtain ⟨t, ht, hft⟩ := hfg.2 f hmem
      refine ⟨t.normalize, by rw [field?_map, ht]; rfl, ihf fs ha f hmem ?_⟩
      exact ⟨h.left.field ha hmem, h.right.field hb (mem_of_field? ht), hft⟩
    · rcases rel_cases hx with ⟨ha, hb⟩ | ⟨xs, ys, ha, hb, hxy⟩
      · rw [ha, hb]
        exact .none
      rw [ha, hb]
      have hitems : List.Forall₂ Twins (xs.map normalize) (ys.map normalize) := by
        rw [List.forall₂_map_left_iff, List.forall₂_map_right_iff]
        have htwins := forall₂_twins hxy (fun _ => h.left.item ha) fun _ => h.right.item hb
        refine ((List.forall₂_and_left xs ys).2 ⟨fun _ hx => hx, htwins⟩).imp fun x y hxy => ?_
        exact ⟨formed_normalize hxy.2.left, formed_normalize hxy.2.right, ihx xs ha x hxy.1 hxy.2⟩
      exact .some ((forall₂_dedupe id hitems).imp fun _ _ h => h.alike)

end Shape

/-! ### Samples -/

namespace Value

/-- One mapping somewhere in a value lists its entries in another order. -/
inductive KeysMoved : Value → Value → Prop
  | keys {es fs : List (Value × Value)} (h : es.Perm fs) : KeysMoved (.mapping es) (.mapping fs)
  | inEntry (before after : List (Value × Value)) (k : Value) {v w : Value} (h : KeysMoved v w) :
      KeysMoved (.mapping (before ++ (k, v) :: after)) (.mapping (before ++ (k, w) :: after))
  | inItem (fixed : Bool) (before after : List Value) {v w : Value} (h : KeysMoved v w) :
      KeysMoved (.sequence fixed (before ++ v :: after)) (.sequence fixed (before ++ w :: after))

variable {holes : Prop}

/-- What is supported stays so where keys are moved. -/
theorem KeysMoved.supported {v w : Value} (hmoved : KeysMoved v w) (h : v.Supported holes) :
    w.Supported holes := by
  induction hmoved with
  | keys hperm =>
    rw [supported_mapping_iff] at h ⊢
    exact ⟨(hperm.map _).nodup_iff.1 h.1, fun e he => h.2 e (hperm.mem_iff.2 he)⟩
  | inEntry before after k _ ih =>
    simp only [supported_mapping_iff, List.map_append, List.map_cons, List.forall_mem_append,
      List.forall_mem_cons] at h ⊢
    exact ⟨h.1, h.2.1, ⟨h.2.2.1.1, ih h.2.2.1.2⟩, h.2.2.2⟩
  | inItem fixed before after _ ih =>
    simp only [supported_sequence_iff, List.forall_mem_append, List.forall_mem_cons] at h ⊢
    exact ⟨h.1, ih h.2.1, h.2.2⟩

theorem alike_arrayOf {xs ys : List Shape} (h : List.Forall₂ Shape.Twins xs ys) :
    (arrayOf xs).Alike (arrayOf ys) := by
  refine Shape.alike_iff.2 ⟨rfl, .none, .some ?_⟩
  cases h with
  | nil => exact .cons (Shape.alike_refl Shape.formed_unknown) .nil
  | cons h hrest => exact (Shape.forall₂_dedupe id (.cons h hrest)).imp fun _ _ h => h.alike

theorem alike_objectOf {fs gs : List (Text × Shape)} (h : Shape.FieldsCorrespond fs gs) :
    (objectOf fs).Alike (objectOf gs) := by
  refine Shape.alike_iff.2 ⟨rfl, .some ?_, .none⟩
  have hempty : fs.isEmpty = gs.isEmpty := by
    have hlen := h.1.length_eq
    rw [Shape.names, Shape.names, List.length_map, List.length_map] at hlen
    rw [Bool.eq_iff_iff, List.isEmpty_iff_length_eq_zero, List.isEmpty_iff_length_eq_zero, hlen]
  rw [hempty]
  split
  · refine ⟨.refl _, List.forall_mem_singleton.2 ⟨.unknown, rfl, ?_⟩⟩
    exact Shape.alike_refl Shape.formed_unknown
  · exact h

/-- The forms of two mappings are alike if they have the same keys, with values whose forms
are alike. -/
theorem alike_form_mapping {es es' : List (Value × Value)} (h : (Value.mapping es).Supported holes)
    (h' : (Value.mapping es').Supported holes) (hkeys : (es.map (·.1)).Perm (es'.map (·.1)))
    (halike : ∀ e ∈ es, ∃ w, (e.1, w) ∈ es' ∧ e.2.form.Alike w.form) :
    (form (.mapping es)).Alike (form (.mapping es')) := by
  cases h with
  | @mapping entries _ h =>
    cases h' with
    | @mapping entries' hn' h' =>
      rw [form_mapping h, form_mapping h']
      rw [keys_entries, keys_entries, List.map_perm_map_iff fun _ _ => Value.text.inj] at hkeys
      refine alike_objectOf ⟨by rwa [names_map_form, names_map_form], fun f hf => ?_⟩
      obtain ⟨e, he, rfl⟩ := List.mem_map.1 hf
      obtain ⟨w, hw, hform⟩ := halike _ (List.mem_map_of_mem he)
      obtain ⟨e', he', heq⟩ := List.mem_map.1 hw
      obtain ⟨hkey, rfl⟩ := Prod.mk.inj heq
      refine ⟨e'.2.form, Shape.field?_of_mem (by rwa [names_map_form]) ?_, hform⟩
      rw [← Value.text.inj hkey]
      exact List.mem_map_of_mem he'

/-- **Where keys are moved, the form stays alike.** -/
theorem KeysMoved.alike {v w : Value} (hmoved : KeysMoved v w) (h : v.Supported holes) :
    v.form.Alike w.form := by
  have hrefl : ∀ {u : Value}, u.Supported holes → u.form.Alike u.form := fun hu =>
    Shape.alike_refl (Shape.valid_form hu).formed
  induction hmoved with
  | keys hperm =>
    refine alike_form_mapping h ((KeysMoved.keys hperm).supported h) (hperm.map _) fun e he => ?_
    exact ⟨e.2, hperm.mem_iff.1 he, hrefl ((supported_mapping_iff.1 h).2 e he).2⟩
  | @inEntry before after k v w hmoved ih =>
    refine alike_form_mapping h ((hmoved.inEntry before after k).supported h) (by simp) ?_
    have hall := (supported_mapping_iff.1 h).2
    intro e he
    rcases List.mem_append.1 he with hmem | hmem
    · exact ⟨e.2, List.mem_append_left _ hmem, hrefl (hall e he).2⟩
    rcases List.mem_cons.1 hmem with rfl | hmem
    · exact ⟨w, List.mem_append_right _ List.mem_cons_self, ih (hall _ he).2⟩
    · exact ⟨e.2, List.mem_append_right _ (List.mem_cons_of_mem _ hmem), hrefl (hall e he).2⟩
  | @inItem fixed before after v w hmoved ih =>
    have h' := (hmoved.inItem fixed before after).supported h
    rw [supported_sequence_iff] at h h'
    rw [form_sequence fixed h, form_sequence fixed h']
    refine alike_arrayOf ?_
    simp only [List.forall_mem_append, List.forall_mem_cons] at h h'
    have hsame : ∀ {us : List Value}, (∀ u ∈ us, u.Supported holes) →
        List.Forall₂ Shape.Twins (us.map form) (us.map form) := by
      intro us hus
      refine List.forall₂_same.2 fun s hs => ?_
      obtain ⟨u, hu, rfl⟩ := List.mem_map.1 hs
      exact Shape.twins_refl (Shape.valid_form (hus u hu)).formed
    rw [List.map_append, List.map_append, List.map_cons, List.map_cons]
    refine List.rel_append (hsame h.1) (.cons ?_ (hsame h.2.2))
    exact ⟨(Shape.valid_form h.2.1).formed, (Shape.valid_form h'.2.1).formed, ih h.2.1⟩

/-- However many mappings list their keys in another order, the forms are twins. -/
theorem twins_form_of_keysMoved {v w : Value} (hmoved : Relation.ReflTransGen KeysMoved v w)
    (h : v.Supported holes) : w.Supported holes ∧ Shape.Twins v.form w.form := by
  induction hmoved with
  | refl => exact ⟨h, Shape.twins_refl (Shape.valid_form h).formed⟩
  | tail _ hstep ih =>
    obtain ⟨hsupported, htwins⟩ := ih
    have hw := hstep.supported hsupported
    exact ⟨hw, htwins.left, (Shape.valid_form hw).formed,
      Shape.alike_trans htwins.alike (hstep.alike hsupported)⟩

end Value

namespace Shape

/-- **The order of keys does not matter.**  Two lists of samples that differ in the order of
keys only, in any mappings at any depth, give shapes that are the same up to the order of
fields, and hence equivalent. -/
theorem infer_keysMoved {samples others : List Value} (hne : samples ≠ [])
    (h : ∀ v ∈ samples, v.Supported True)
    (hmoved : List.Forall₂ (Relation.ReflTransGen Value.KeysMoved) samples others) :
    ∃ s t, infer samples = .ok s ∧ infer others = .ok t ∧ s.Alike t ∧ s.equiv t := by
  cases hmoved with
  | nil => exact absurd rfl hne
  | @cons v w rest rest' hv hrest =>
    have hforms : List.Forall₂ (fun v w => w.Supported True ∧ Twins v.form w.form) (v :: rest)
        (w :: rest') :=
      ((List.forall₂_and_left _ _).2 ⟨h, .cons hv hrest⟩).imp fun _ _ hvw =>
        Value.twins_form_of_keysMoved hvw.2 hvw.1
    have h' : ∀ u ∈ w :: rest', u.Supported True := by
      intro u hu
      obtain ⟨_, _, hsupported, _⟩ := (exists_mem_of_forall₂ hforms).2 u hu
      exact hsupported
    have htwins : List.Forall₂ Twins ((v :: rest).map Value.form) ((w :: rest').map Value.form) :=
      List.rel_map (fun _ _ hvw => hvw.2) hforms
    have hnormal : Twins (joinAll v.form (rest.map Value.form)).normalize
        (joinAll w.form (rest'.map Value.form)).normalize := by
      cases htwins with
      | cons hfirst hrest => exact twins_normalize (twins_joinAll hfirst hrest)
    exact ⟨_, _, infer_eq h, infer_eq h', hnormal.alike, hnormal.alike.equiv⟩

/-- A mapping that holds another in an array. -/
def nested : Value :=
  .mapping [(.text "a", .sequence false [.mapping [(.text "x", .integer 1), (.text "y", .null)]]),
    (.text "b", .boolean true)]

/-- The same with the keys of both mappings in the other order. -/
def nestedMoved : Value :=
  .mapping [(.text "b", .boolean true),
    (.text "a", .sequence false [.mapping [(.text "y", .null), (.text "x", .integer 1)]])]

theorem supported_nested : nested.Supported True := by
  have hinner : (Value.mapping [(.text "x", .integer 1), (.text "y", .null)]).Supported True := by
    refine @Value.Supported.mapping True [("x", .integer 1), ("y", .null)] (by decide) ?_
    rw [List.forall_mem_cons, List.forall_mem_singleton]
    exact ⟨.integer 1, .null⟩
  refine @Value.Supported.mapping True [("a", .sequence false [_]), ("b", .boolean true)]
    (by decide) ?_
  rw [List.forall_mem_cons, List.forall_mem_singleton]
  exact ⟨.sequence false (List.forall_mem_singleton.2 hinner), .boolean true⟩

theorem keysMoved_nested : Relation.ReflTransGen Value.KeysMoved nested nestedMoved :=
  .trans (.single (.inEntry [] _ _ (.inItem false [] [] (.keys (.swap _ _ _)))))
    (.single (.keys (.swap _ _ _)))

theorem infer_keysMoved_nested :
    ∃ s t, infer [nested, .text "x"] = .ok s ∧ infer [nestedMoved, .text "x"] = .ok t ∧
      s.Alike t ∧ s.equiv t := by
  refine infer_keysMoved (List.cons_ne_nil _ _) ?_ (.cons keysMoved_nested (.cons .refl .nil))
  rw [List.forall_mem_cons, List.forall_mem_singleton]
  exact ⟨supported_nested, .text "x"⟩

end Shape
end SampleShape
