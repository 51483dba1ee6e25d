/-
# How deeply joins nest

To join two shapes is to join their fields, and their items, and items that are joined into
one are joined with what came out of the joins before.  That is no part of either side, so
whether joining comes to an end depends on how deep joins are: the join of two shapes is
exactly as deep as the deeper of them (`depth_join`).

For fields it is enough to find each name again (`fieldsDepth_joinFields`).  Items go through
three steps, none of which changes how deep they are: of equivalent items one is kept, and
they are equally deep (`depth_eq_of_equiv`); placeholders are dropped, which hold nothing
(`itemsDepth_pool`); and the containers of either kind are joined into one
(`itemsDepth_joinRow`).

So the joins inside a join are of less deep shapes, and there are never more of them inside
each other than the deeper side has levels, the outermost not counted (`joinWithin_eq_ok`).
-/

import SampleShape.Proofs.Construction
import SampleShape.Proofs.Rearrangement

namespace SampleShape
namespace Shape

/-! ### Depth by contents -/

/-- A shape is as deep as the deeper of its contents. -/
theorem depth_eq_max (s : Shape) :
    s.depth = max (s.fields.elim 0 fun fs => 1 + fieldsDepth fs)
      (s.items.elim 0 fun xs => 1 + itemsDepth xs) := by
  obtain ⟨leaves, fields, items⟩ := s
  cases fields <;> cases items <;> simp only [depth, Option.elim] <;> omega

theorem itemsDepth_mono {xs ys : List Shape} (h : ∀ x ∈ xs, ∃ y ∈ ys, x.depth ≤ y.depth) :
    itemsDepth xs ≤ itemsDepth ys := by
  refine itemsDepth_le_iff.2 fun x hx => ?_
  obtain ⟨y, hy, hle⟩ := h x hx
  exact Nat.le_trans hle (depth_le_itemsDepth hy)

theorem itemsDepth_append (xs ys : List Shape) :
    itemsDepth (xs ++ ys) = max (itemsDepth xs) (itemsDepth ys) := by
  induction xs with
  | nil => simp [itemsDepth]
  | cons x xs ih => rw [List.cons_append, itemsDepth, itemsDepth, ih, Nat.max_assoc]

/-! ### Equivalent shapes -/

/-- Each part of the first of two equivalent shapes has an equivalent part in the second. -/
theorem depth_le_of_equiv {a b : Shape} (h : a.equiv b) : a.depth ≤ b.depth := by
  induction a using Shape.induct generalizing b with
  | step a ihf ihx =>
    have hb := depth_le_iff.1 (Nat.le_refl b.depth)
    refine depth_le_iff.2 ⟨fun fs hfs => ?_, fun xs hxs => ?_⟩
    · obtain ⟨gs, hgs, -, hfields⟩ := exists_fields_of_equiv h hfs
      have hle : fieldsDepth fs ≤ fieldsDepth gs := by
        refine fieldsDepth_le_iff.2 fun f hf => ?_
        obtain ⟨t, ht, hft⟩ := hfields f hf
        exact Nat.le_trans (ihf fs hfs f hf hft) (depth_le_fieldsDepth (mem_of_field? ht))
      have hbound := hb.1 gs hgs
      omega
    · obtain ⟨ys, hys, hitems, -⟩ := exists_items_of_equiv h hxs
      have hle : itemsDepth xs ≤ itemsDepth ys := by
        refine itemsDepth_mono fun x hx => ?_
        obtain ⟨y, hy, hxy⟩ := hitems x hx
        exact ⟨y, hy, ihx xs hxs x hx hxy⟩
      have hbound := hb.2 ys hys
      omega

/-- **Equivalent shapes are equally deep.** -/
theorem depth_eq_of_equiv {a b : Shape} (hb : b.Formed) (h : a.equiv b) : a.depth = b.depth :=
  Nat.le_antisymm (depth_le_of_equiv h) (depth_le_of_equiv (equiv_symm hb h))

/-! ### Joined fields -/

section Joined

variable {j : Shape → Shape → Shape} {fs gs : List (Text × Shape)}

/-- Under the name of a field of either side, the join has one that is at least as deep. -/
theorem depth_le_joinFields
    (hj : ∀ k s t, (k, s) ∈ fs → (k, t) ∈ gs → (j s t).depth = max s.depth t.depth)
    {k : Text} {s : Shape} (hs : field? k fs = some s ∨ field? k gs = some s) :
    s.depth ≤ fieldsDepth (joinFields j fs gs) := by
  have hk := field?_joinFields j fs gs k
  have hle : ∀ u, field? k (joinFields j fs gs) = some u →
      u.depth ≤ fieldsDepth (joinFields j fs gs) :=
    fun u hu => depth_le_fieldsDepth (mem_of_field? hu)
  cases hf : field? k fs with
  | none =>
    cases hg : field? k gs with
    | none => simp [hf, hg] at hs
    | some t =>
      rw [hf, hg] at hk
      obtain rfl : t = s := by simpa [hf, hg] using hs
      rw [← depth_withLeaf .undefined t]
      exact hle _ hk
  | some u =>
    cases hg : field? k gs with
    | none =>
      rw [hf, hg] at hk
      obtain rfl : u = s := by simpa [hf, hg] using hs
      rw [← depth_withLeaf .undefined u]
      exact hle _ hk
    | some t =>
      rw [hf, hg] at hk
      have hdepth := hj k u t (mem_of_field? hf) (mem_of_field? hg)
      have hmax := hle _ hk
      have hside : u = s ∨ t = s := by simpa [hf, hg] using hs
      rcases hside with rfl | rfl <;> omega

/-- **Joined fields are as deep as the fields of both sides,** since each name is found
again. -/
theorem fieldsDepth_joinFields (hfs : (names fs).Nodup) (hgs : (names gs).Nodup)
    (hj : ∀ k s t, (k, s) ∈ fs → (k, t) ∈ gs → (j s t).depth = max s.depth t.depth) :
    fieldsDepth (joinFields j fs gs) = max (fieldsDepth fs) (fieldsDepth gs) := by
  refine Nat.le_antisymm (fieldsDepth_joinFields_le ?_) (Nat.max_le.2 ⟨?_, ?_⟩)
  · exact fun k s t hs ht => Nat.le_of_eq (hj k s t hs ht)
  · exact fieldsDepth_le_iff.2 fun f hf =>
      depth_le_joinFields hj (Or.inl (field?_of_mem hfs hf))
  · exact fieldsDepth_le_iff.2 fun g hg =>
      depth_le_joinFields hj (Or.inr (field?_of_mem hgs hg))

/-! ### Joined items -/

/-- **Keeping one of several equivalent items loses no depth.** -/
theorem itemsDepth_dedupe {shapes : List Shape} (h : ∀ s ∈ shapes, s.Formed) :
    itemsDepth (dedupe shapes) = itemsDepth shapes := by
  refine Nat.le_antisymm (itemsDepth_mono fun s hs => ?_) (itemsDepth_mono fun s hs => ?_)
  · exact ⟨s, mem_of_mem_dedupe hs, Nat.le_refl _⟩
  · obtain ⟨t, ht, rfl | hts⟩ := exists_mem_dedupe hs
    · exact ⟨t, ht, Nat.le_refl _⟩
    · exact ⟨t, ht, Nat.le_of_eq (depth_eq_of_equiv (h s hs) hts).symm⟩

/-- **Dropping placeholders loses no depth.** -/
theorem itemsDepth_pool {xs ys : List Shape} (hx : ∀ x ∈ xs, x.Formed) (hy : ∀ y ∈ ys, y.Formed) :
    itemsDepth (pool xs ys) = max (itemsDepth xs) (itemsDepth ys) := by
  have hall : ∀ s ∈ xs ++ ys, s.Formed := fun s hs =>
    (List.mem_append.1 hs).elim (hx s) (hy s)
  rw [← itemsDepth_append, ← itemsDepth_dedupe hall]
  refine Nat.le_antisymm (itemsDepth_mono fun s hs => ?_) (itemsDepth_le_iff.2 fun s hs => ?_)
  · exact ⟨s, (List.mem_filter.1 hs).1, Nat.le_refl _⟩
  · by_cases hp : s.isPlaceholder
    · rw [eq_unknown_of_isPlaceholder hp]
      exact Nat.zero_le _
    · exact depth_le_itemsDepth (List.mem_filter.2 ⟨hs, by simpa using hp⟩)

variable {P : Shape → Prop}

/-- The accumulated join is as deep as the deepest shape that went into it. -/
theorem depth_foldl (hj : ∀ x y, P x → P y → (j x y).depth = max x.depth y.depth ∧ P (j x y))
    {rest : List Shape} {x : Shape} (hx : P x) (hrest : ∀ y ∈ rest, P y) :
    (rest.foldl j x).depth = max x.depth (itemsDepth rest) := by
  induction rest generalizing x with
  | nil => simp [itemsDepth]
  | cons y rest ih =>
    rw [List.forall_mem_cons] at hrest
    obtain ⟨hdepth, hP⟩ := hj x y hx hrest.1
    rw [List.foldl_cons, ih hP hrest.2, hdepth, itemsDepth, Nat.max_assoc]

theorem itemsDepth_joinRow
    (hj : ∀ x y, P x → P y → (j x y).depth = max x.depth y.depth ∧ P (j x y))
    {row : List Shape} (hrow : ∀ x ∈ row, P x) : itemsDepth (joinRow j row) = itemsDepth row := by
  cases row with
  | nil => rfl
  | cons x rest =>
    rw [List.forall_mem_cons] at hrow
    rw [joinRow_cons, itemsDepth, depth_foldl hj hrow.1 hrow.2, itemsDepth, itemsDepth,
      Nat.max_zero]

/-- **Joined items are as deep as the pooled ones.** -/
theorem itemsDepth_joinItems
    (hj : ∀ x y, P x → P y → (j x y).depth = max x.depth y.depth ∧ P (j x y))
    {xs ys : List Shape} (hpool : ∀ s ∈ pool xs ys, P s) :
    itemsDepth (joinItems j xs ys) = itemsDepth (pool xs ys) := by
  have hrow : ∀ p : Shape → Bool,
      itemsDepth (joinRow j ((pool xs ys).filter p)) = itemsDepth ((pool xs ys).filter p) :=
    fun p => itemsDepth_joinRow hj fun s hs => hpool s (List.mem_filter.1 hs).1
  rw [joinItems_eq]
  split
  · rename_i hempty
    rw [List.isEmpty_iff.1 hempty]
    rfl
  rw [itemsDepth_append, itemsDepth_append, pooledObjects, pooledArrays, hrow, hrow,
    ← itemsDepth_append, ← itemsDepth_append]
  -- a pooled item is in one of the three rows
  refine Nat.le_antisymm (itemsDepth_mono fun s hs => ?_) (itemsDepth_mono fun s hs => ?_)
  all_goals refine ⟨s, ?_, Nat.le_refl _⟩
  all_goals simp only [pooledLeaves, List.mem_append, List.mem_filter] at hs ⊢
  · tauto
  · cases s.isObject <;> cases s.isArray <;> simp [hs]

end Joined

/-! ### Joins -/

/-- Joined contents are as large as the larger of the two, if that is so where both are
there. -/
theorem elim_joinContent {α : Type} {f : α → α → α} {size : α → Nat} {x? y? : Option α}
    (h : ∀ x y, x? = some x → y? = some y → size (f x y) = max (size x) (size y)) :
    (joinContent f x? y?).elim 0 size = max (x?.elim 0 size) (y?.elim 0 size) := by
  cases x? with
  | none => simp
  | some x =>
    cases y? with
    | none => simp
    | some y => exact h x y rfl rfl

/-- **A join is as deep as the deeper of its sides.** -/
theorem depth_join {a b : Shape} (ha : a.Formed) (hb : b.Formed) :
    (a.join b).depth = max a.depth b.depth := by
  induction a, b using induct₂ with
  | step a b ih =>
    by_cases h : a.equiv b
    · rw [join_of_equiv h, depth_eq_of_equiv hb h, Nat.max_self]
    have hfields : ∀ fs gs, a.fields = some fs → b.fields = some gs →
        1 + fieldsDepth (joinFields join fs gs) =
          max (1 + fieldsDepth fs) (1 + fieldsDepth gs) := by
      intro fs gs hfs hgs
      rw [fieldsDepth_joinFields (ha.here.names fs hfs) (hb.here.names gs hgs)]
      · omega
      intro k s t hs ht
      have h₁ : s.depth < a.depth := depth_lt_of_field hfs hs
      have h₂ : t.depth < b.depth := depth_lt_of_field hgs ht
      exact ih s t (by omega) (by omega) (ha.field hfs hs) (hb.field hgs ht)
    -- what the items were joined into is joined again: it is still formed and less deep
    have hitems : ∀ xs ys, a.items = some xs → b.items = some ys →
        1 + itemsDepth (joinItems join xs ys) = max (1 + itemsDepth xs) (1 + itemsDepth ys) := by
      intro xs ys hxs hys
      rw [itemsDepth_joinItems (P := fun s => s.depth < max a.depth b.depth ∧ s.Formed),
        itemsDepth_pool (fun x => ha.item hxs) fun y => hb.item hys]
      · omega
      · rintro x y ⟨hx, hx'⟩ ⟨hy, hy'⟩
        have hdepth := ih x y hx hy hx' hy'
        exact ⟨hdepth, by omega, formed_join hx' hy'⟩
      · intro s hs
        rcases mem_of_mem_pool hs with hs | hs
        · have hlt := depth_lt_of_item hxs hs
          exact ⟨by omega, ha.item hxs hs⟩
        · have hlt := depth_lt_of_item hys hs
          exact ⟨by omega, hb.item hys hs⟩
    rw [join_of_not_equiv h, depth_eq_max, depth_eq_max a, depth_eq_max b,
      elim_joinContent hfields, elim_joinContent hitems]
    omega

end Shape

/-! ### Joins within joins -/

namespace Making

/-- The join, with checks, in which at most `n` joins are nested in each other: `stop` takes
the place of those further in. -/
def joinWithin (stop : Shape → Shape → Except Fault Shape) :
    Nat → Shape → Shape → Except Fault Shape
  | 0 => stop
  | n + 1 => joinery.joinWith (joinWithin stop n)

/-- **Joins do not nest deeper than shapes,** so that `stop` is not reached. -/
theorem joinWithin_eq_ok (stop : Shape → Shape → Except Fault Shape) {n : Nat} {a b : Shape}
    (hn : max a.depth b.depth < n) (ha : a.Formed) (hb : b.Formed) :
    joinWithin stop n a b = .ok (a.join b) := by
  induction n generalizing a b with
  | zero => exact absurd hn (Nat.not_lt_zero _)
  | succ n ih =>
    exact follows.joinWith ha hb fun x y hx hy hx' hy' => ih (a := x) (b := y) (by omega) hx' hy'

end Making

namespace Shape

/-- **Joining comes to an end and never deepens,** for shapes that `Shape.make` accepts.
Whatever is put in the place of joins nested further in than the sides are deep, a fault
included, the join is returned: there are none.  It is exactly as deep as the deeper of its
sides, and shapes that compare as equivalent are equally deep. -/
theorem join_keeps_depth {a b : Shape} (ha : a.Made) (hb : b.Made) :
    (∀ (stop : Shape → Shape → Except Making.Fault Shape) (n : Nat), max a.depth b.depth < n →
      Making.joinWithin stop n a b = .ok (a.join b)) ∧
    Sketch.join (.whole a) (.whole b) = .ok (.whole (a.join b)) ∧
    (a.join b).depth = max a.depth b.depth ∧
    (a.equiv b → a.depth = b.depth) := by
  have ha := ha.formed_of_made
  have hb := hb.formed_of_made
  refine ⟨fun stop n hn => ?_, Sketch.join_whole ha hb, depth_join ha hb, depth_eq_of_equiv hb⟩
  exact Making.joinWithin_eq_ok stop hn ha hb

/-- Arrays of objects, texts and arrays, the objects deepest. -/
def unevenItems : Shape :=
  array [object [("a", array [unknown])], leaf .string, array [leaf .number]]

/-- Arrays of objects and arrays, the arrays deepest, with a placeholder among them. -/
def deeperItems : Shape :=
  array [object [("b", leaf .null)], object [("a", leaf .string)],
    array [array [array [unknown]]], unknown]

/-- The items of `unevenItems` in another order, one of them twice. -/
def shuffledItems : Shape :=
  array [array [leaf .number], leaf .string, object [("a", array [unknown])], leaf .string]

theorem made_unevenItems : unevenItems.Made := by
  refine made_array ?_
  rw [List.forall_mem_cons, List.forall_mem_cons, List.forall_mem_singleton]
  exact ⟨made_singleField (made_singleItem (made_leaf .unknown)), made_leaf .string,
    made_singleItem (made_leaf .number)⟩

theorem made_deeperItems : deeperItems.Made := by
  refine made_array ?_
  rw [List.forall_mem_cons, List.forall_mem_cons, List.forall_mem_cons, List.forall_mem_singleton]
  exact ⟨made_singleField (made_leaf .null), made_singleField (made_leaf .string),
    made_singleItem (made_singleItem (made_singleItem (made_leaf .unknown))), made_leaf .unknown⟩

theorem made_shuffledItems : shuffledItems.Made := by
  refine made_array ?_
  rw [List.forall_mem_cons, List.forall_mem_cons, List.forall_mem_cons, List.forall_mem_singleton]
  exact ⟨made_singleItem (made_leaf .number), made_leaf .string,
    made_singleField (made_singleItem (made_leaf .unknown)), made_leaf .string⟩

theorem join_keeps_depth_unevenItems :
    unevenItems.Made ∧ deeperItems.Made ∧ shuffledItems.Made ∧
    Making.joinWithin (fun _ _ => .error (.refused .noKind)) 2 unevenItems deeperItems =
      .error (.refused .noKind) ∧
    Making.joinWithin (fun _ _ => .error (.refused .noKind)) 5 unevenItems deeperItems =
      .ok (unevenItems.join deeperItems) ∧
    (unevenItems.join deeperItems).depth = 4 ∧
    unevenItems.equiv shuffledItems ∧ unevenItems.depth = shuffledItems.depth := by
  obtain ⟨hjoin, -, hdepth, -⟩ := join_keeps_depth made_unevenItems made_deeperItems
  obtain ⟨-, -, -, hequiv⟩ := join_keeps_depth made_unevenItems made_shuffledItems
  have hsame : unevenItems.equiv shuffledItems := by decide
  exact ⟨made_unevenItems, made_deeperItems, made_shuffledItems, rfl, hjoin _ 5 (by decide),
    hdepth, hsame, hequiv hsame⟩

end Shape
end SampleShape
