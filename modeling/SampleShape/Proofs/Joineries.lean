/-
# Joins that follow the join of shapes

The rules of a join are those of `Joinery`, whatever is joined and whatever can go wrong.  A
joinery follows the shapes if its steps do not fail on what stands for formed shapes, and give
what stands for the result of the same step on shapes (`Joinery.Follows`).  Then so does its
join: it does not fail, and gives what stands for the join of the shapes (`Follows.join`).

The induction is on nesting.  One level of a join is joined as the levels below it are
(`Follows.joinWith`), where what is folded into one was joined before; that these joins are
formed, and no deeper, is what carries it.

Sketches without gaps stand for shapes, and their joinery follows them (`Sketch.follows`).
-/

import SampleShape.Proofs.Validity
import SampleShape.Sketch.Join

namespace SampleShape

/-- Fields whose shapes are put into the form that `held` gives them. -/
def heldFields {φ : Type} (held : Shape → φ) (fs : List (Text × Shape)) : List (Text × φ) :=
  fs.map fun f => (f.1, held f.2)

namespace Joinery

/-- Whether a joinery does, on what stands for formed shapes, what shapes do.  `whole` gives
what stands for a shape, and `held` what a field holds that has the shape. -/
structure Follows {ε σ φ : Type} (J : Joinery (Except ε) σ φ) (whole : Shape → σ)
    (held : Shape → φ) : Prop where
  leaves : ∀ s, J.leaves (whole s) = s.leaves
  fields : ∀ s, J.fields (whole s) = s.fields.map (heldFields held)
  items : ∀ s, J.items (whole s) = s.items.map (List.map whole)
  depth : ∀ s, J.depth (whole s) = s.depth
  placeholder : J.placeholder = whole .unknown
  isPlaceholder : ∀ s, J.isPlaceholder (whole s) = s.isPlaceholder
  equiv : ∀ a b, J.equiv (whole a) (whole b) = .ok (a.equiv b)
  dedupe : ∀ xs, J.dedupe (xs.map whole) = .ok ((Shape.dedupe xs).map whole)
  joinShared : ∀ j name s t u, j (whole s) (whole t) = .ok (whole u) →
    J.joinShared j name (held s) (some (held t)) = .ok (held u)
  makeOptional : ∀ s, Shape.FormedHere s →
    J.makeOptional (held s) = .ok (held (s.withLeaf .undefined))
  assemble : ∀ leaves fields items, Shape.FormedHere ⟨leaves, fields, items⟩ →
    J.assemble leaves (fields.map (heldFields held)) (items.map (List.map whole)) =
      .ok (whole ⟨leaves, fields, items⟩)

/-! ### Fields -/

section Fields

variable {ε φ : Type} {held : Shape → φ}

theorem hasField_heldFields (k : Text) (fs : List (Text × Shape)) :
    Shape.hasField k (heldFields held fs) = Shape.hasField k fs := by
  rw [Shape.hasField, heldFields, List.any_map]
  rfl

theorem lookup_heldFields (k : Text) (fs : List (Text × Shape)) :
    (heldFields held fs).lookup k = (Shape.field? k fs).map held := by
  induction fs with
  | nil => rfl
  | cons f rest ih =>
    rw [heldFields, List.map_cons, Shape.field?, List.lookup_cons, List.lookup_cons]
    split
    · rfl
    · exact ih

theorem filter_heldFields (p : Text → Bool) (fs : List (Text × Shape)) :
    (heldFields held fs).filter (fun f => p f.1) = heldFields held (fs.filter fun f => p f.1) := by
  rw [heldFields, List.filter_map]
  rfl

@[simp] theorem heldFields_id : heldFields (id : Shape → Shape) = id :=
  funext fun fs => List.map_id fs

theorem heldFields_append (fs gs : List (Text × Shape)) :
    heldFields held (fs ++ gs) = heldFields held fs ++ heldFields held gs := List.map_append

/-- A step that goes through for each field goes through for all. -/
theorem mapM_heldFields {f : Text × φ → Except ε (Text × φ)} {g : Text × Shape → Text × Shape}
    {fs : List (Text × Shape)} (h : ∀ x ∈ fs, f (x.1, held x.2) = .ok ((g x).1, held (g x).2)) :
    (heldFields held fs).mapM f = .ok (heldFields held (fs.map g)) := by
  induction fs with
  | nil => rfl
  | cons x rest ih =>
    rw [List.forall_mem_cons] at h
    have hrest : (rest.map fun f => (f.1, held f.2)).mapM f = _ := ih h.2
    rw [heldFields, List.map_cons, List.mapM_cons, h.1, hrest]
    rfl

end Fields

/-! ### The steps of a join -/

namespace Follows

variable {ε σ φ : Type} {J : Joinery (Except ε) σ φ} {whole : Shape → σ} {held : Shape → φ}
  {j : σ → σ → Except ε σ}

theorem joinFields (h : J.Follows whole held) {fs gs : List (Text × Shape)}
    (hj : ∀ f ∈ fs, ∀ t, Shape.field? f.1 gs = some t →
      j (whole f.2) (whole t) = .ok (whole (f.2.join t)))
    (hf : ∀ f ∈ fs, Shape.FormedHere f.2) (hg : ∀ g ∈ gs, Shape.FormedHere g.2) :
    J.joinFields j (heldFields held fs) (heldFields held gs) =
      .ok (heldFields held (Shape.joinFields Shape.join fs gs)) := by
  have hshared : (heldFields held (fs.filter fun f => Shape.hasField f.1 gs)).mapM (fun f => do
      return (f.1, ← J.joinShared j f.1 f.2 ((heldFields held gs).lookup f.1))) =
        .ok (heldFields held
          (fs.filterMap fun f => (Shape.field? f.1 gs).map fun t => (f.1, f.2.join t))) := by
    rw [← Shape.shared_eq]
    refine mapM_heldFields fun f hmem => ?_
    obtain ⟨hmem, hfield⟩ := List.mem_filter.1 hmem
    cases ht : Shape.field? f.1 gs with
    | none => exact absurd (Shape.hasField_iff.1 hfield) (Shape.field?_eq_none_iff.1 ht)
    | some t =>
      dsimp only
      rw [lookup_heldFields, ht, Option.map_some, h.joinShared _ _ _ _ _ (hj f hmem t ht)]
      rfl
  have hoptional : ∀ hs : List (Text × Shape), (∀ f ∈ hs, Shape.FormedHere f.2) →
      (heldFields held hs).mapM (fun f => do return (f.1, ← J.makeOptional f.2)) =
        .ok (heldFields held (hs.map fun f => (f.1, f.2.withLeaf .undefined))) := by
    intro hs hformed
    refine mapM_heldFields fun f hmem => ?_
    dsimp only
    rw [h.makeOptional _ (hformed f hmem)]
    rfl
  have hformed : ∀ f ∈ (fs.filter fun f => !Shape.hasField f.1 gs) ++
      gs.filter (fun g => !Shape.hasField g.1 fs), Shape.FormedHere f.2 := by
    intro f hmem
    rcases List.mem_append.1 hmem with hmem | hmem
    · exact hf f (List.mem_filter.1 hmem).1
    · exact hg f (List.mem_filter.1 hmem).1
  rw [Joinery.joinFields, Shape.joinFields_eq]
  simp only [hasField_heldFields, filter_heldFields (Shape.hasField · gs),
    filter_heldFields (fun k => !Shape.hasField k gs),
    filter_heldFields (fun k => !Shape.hasField k fs), ← heldFields_append]
  rw [hshared, hoptional _ hformed, heldFields_append]
  rfl

variable {P : Shape → Prop}

/-- A fold goes through if its steps do and keep what they rely on. -/
theorem foldlM_eq_ok
    (hj : ∀ x y, P x → P y → j (whole x) (whole y) = .ok (whole (x.join y)) ∧ P (x.join y))
    {rest : List Shape} {x : Shape} (hx : P x) (hrest : ∀ y ∈ rest, P y) :
    (rest.map whole).foldlM j (whole x) = .ok (whole (rest.foldl Shape.join x)) := by
  induction rest generalizing x with
  | nil => rfl
  | cons y rest ih =>
    rw [List.forall_mem_cons] at hrest
    obtain ⟨hok, hP⟩ := hj x y hx hrest.1
    rw [List.map_cons, List.foldlM_cons, hok, List.foldl_cons]
    exact ih hP hrest.2

theorem joinRow_eq_ok
    (hj : ∀ x y, P x → P y → j (whole x) (whole y) = .ok (whole (x.join y)) ∧ P (x.join y))
    {row : List Shape} (hrow : ∀ x ∈ row, P x) :
    joinRow j (row.map whole) = .ok ((Shape.joinRow Shape.join row).map whole) := by
  cases row with
  | nil => rfl
  | cons x rest =>
    rw [List.forall_mem_cons] at hrow
    rw [List.map_cons, joinRow, foldlM_eq_ok hj hrow.1 hrow.2, Shape.joinRow_cons]
    rfl

theorem joinItems (h : J.Follows whole held)
    (hj : ∀ x y, P x → P y → j (whole x) (whole y) = .ok (whole (x.join y)) ∧ P (x.join y))
    {xs ys : List Shape} (hx : ∀ x ∈ xs, P x) (hy : ∀ y ∈ ys, P y) :
    J.joinItems j (xs.map whole) (ys.map whole) =
      .ok ((Shape.joinItems Shape.join xs ys).map whole) := by
  have hobject : ∀ s, J.isObject (whole s) = s.isObject := fun s => by
    rw [Joinery.isObject, h.fields, Option.isSome_map]
    rfl
  have harray : ∀ s, J.isArray (whole s) = s.isArray := fun s => by
    rw [Joinery.isArray, h.items, Option.isSome_map]
    rfl
  have hrow : ∀ p : Shape → Bool, joinRow j (((Shape.pool xs ys).filter p).map whole) =
      .ok ((Shape.joinRow Shape.join ((Shape.pool xs ys).filter p)).map whole) := fun p =>
    joinRow_eq_ok hj fun s hs =>
      (Shape.mem_of_mem_pool (List.mem_filter.1 hs).1).elim (hx s) (hy s)
  have hpool : ((Shape.dedupe (xs ++ ys)).map whole).filter (fun s => !J.isPlaceholder s) =
      (Shape.pool xs ys).map whole := by
    rw [List.filter_map, Shape.pool]
    simp only [Function.comp_def, h.isPlaceholder]
  rw [Joinery.joinItems, ← List.map_append, h.dedupe]
  dsimp only [bind, Except.bind]
  rw [hpool, Shape.joinItems_eq, List.isEmpty_map]
  split
  · rw [h.placeholder]
    rfl
  · simp only [List.filter_map, Function.comp_def, hobject, harray, hrow]
    rw [Shape.pooledLeaves, Shape.pooledObjects, Shape.pooledArrays, List.map_append,
      List.map_append]
    rfl

theorem joinContent_eq_ok {α β : Type} {f : α → α → Except ε α} {g : β → β → β} {e : β → α}
    {x? y? : Option β} (h : ∀ x y, x? = some x → y? = some y → f (e x) (e y) = .ok (e (g x y))) :
    joinContent f (x?.map e) (y?.map e) = .ok ((Shape.joinContent g x? y?).map e) := by
  cases x? with
  | none => rfl
  | some x =>
    cases y? with
    | none => rfl
    | some y =>
      rw [Option.map_some, Option.map_some, joinContent, h x y rfl rfl]
      rfl

/-- **One level of a join follows the join of shapes** if the joins of less deep shapes do. -/
theorem joinWith (h : J.Follows whole held) {a b : Shape} (ha : a.Formed) (hb : b.Formed)
    (hj : ∀ x y, x.depth < max a.depth b.depth → y.depth < max a.depth b.depth → x.Formed →
      y.Formed → j (whole x) (whole y) = .ok (whole (x.join y))) :
    J.joinWith j (whole a) (whole b) = .ok (whole (a.join b)) := by
  rw [Joinery.joinWith, h.equiv]
  by_cases heq : a.equiv b
  · rw [heq, Shape.join_of_equiv heq]
    rfl
  have hfields : joinContent (J.joinFields j) (J.fields (whole a)) (J.fields (whole b)) =
      .ok ((Shape.joinContent (Shape.joinFields Shape.join) a.fields b.fields).map
        (heldFields held)) := by
    rw [h.fields, h.fields]
    refine joinContent_eq_ok fun fs gs hfs hgs => h.joinFields ?_ ?_ ?_
    · intro f hf t ht
      have ht := Shape.mem_of_field? ht
      have h₁ : f.2.depth < a.depth := Shape.depth_lt_of_field hfs hf
      have h₂ : t.depth < b.depth := Shape.depth_lt_of_field hgs ht
      exact hj f.2 t (by omega) (by omega) (ha.field hfs hf) (hb.field hgs ht)
    · exact fun f hf => (ha.field hfs hf).here
    · exact fun g hg => (hb.field hgs hg).here
  -- joined items are joined again, so the bound on depth goes along with being formed
  have hitems : joinContent (J.joinItems j) (J.items (whole a)) (J.items (whole b)) =
      .ok ((Shape.joinContent (Shape.joinItems Shape.join) a.items b.items).map
        (List.map whole)) := by
    rw [h.items, h.items]
    refine joinContent_eq_ok fun xs ys hxs hys =>
      h.joinItems (P := fun s => s.depth < max a.depth b.depth ∧ s.Formed) ?_ ?_ ?_
    · intro x y hx hy
      have hle := Shape.depth_join_le x y
      exact ⟨hj x y hx.1 hy.1 hx.2 hy.2, by omega, Shape.formed_join hx.2 hy.2⟩
    · intro x hx
      have hlt := Shape.depth_lt_of_item hxs hx
      exact ⟨by omega, ha.item hxs hx⟩
    · intro y hy
      have hlt := Shape.depth_lt_of_item hys hy
      exact ⟨by omega, hb.item hys hy⟩
  have hformed := Shape.formedHere_join ha.here hb.here heq
  rw [Shape.join_of_not_equiv heq] at hformed ⊢
  rw [hfields, hitems, h.leaves, h.leaves, Bool.eq_false_iff.2 heq]
  exact h.assemble _ _ _ hformed

/-- **The join follows the join of shapes,** with any bound above their depth. -/
theorem joinAt (h : J.Follows whole held) {n : Nat} {a b : Shape} (hn : max a.depth b.depth < n)
    (ha : a.Formed) (hb : b.Formed) :
    J.joinAt n (whole a) (whole b) = .ok (whole (a.join b)) := by
  induction n generalizing a b with
  | zero => exact absurd hn (Nat.not_lt_zero _)
  | succ n ih => exact h.joinWith ha hb fun x y hx hy hx' hy' => ih (by omega) hx' hy'

theorem join (h : J.Follows whole held) {a b : Shape} (ha : a.Formed) (hb : b.Formed) :
    J.join (whole a) (whole b) = .ok (whole (a.join b)) := by
  rw [Joinery.join, h.depth, h.depth]
  exact h.joinAt (Nat.lt_succ_self _) ha hb

theorem joinAll (h : J.Follows whole held) {s : Shape} {rest : List Shape} (hs : s.Formed)
    (hrest : ∀ t ∈ rest, t.Formed) :
    J.joinAll (whole s) (rest.map whole) = .ok (whole (s.joinAll rest)) := by
  rw [Joinery.joinAll, Shape.joinAll_eq]
  exact foldlM_eq_ok (fun _ _ hx hy => ⟨h.join hx hy, Shape.formed_join hx hy⟩) hs hrest

end Follows
end Joinery

/-! ### Sketches without gaps -/

namespace Sketch

theorem anyM_compare_whole (kept : List Shape) (s : Shape) :
    (kept.map whole).anyM (compare · (.whole s)) = .ok (kept.any (·.equiv s)) := by
  induction kept with
  | nil => rfl
  | cons t rest ih =>
    have hcompare : compare (.whole t) (.whole s) = .ok (t.equiv s) := rfl
    rw [List.map_cons, List.anyM, hcompare, List.any_cons]
    cases t.equiv s
    · exact ih
    · rfl

theorem foldlM_keep_whole (kept shapes : List Shape) :
    (shapes.map whole).foldlM keep (kept.map .whole) =
      .ok ((Shape.dedupeOnto kept shapes).map .whole) := by
  induction shapes generalizing kept with
  | nil => rfl
  | cons s rest ih =>
    have hkeep : keep (kept.map .whole) (.whole s) =
        .ok ((if kept.any (·.equiv s) then kept else kept ++ [s]).map .whole) := by
      rw [keep, anyM_compare_whole]
      cases kept.any (·.equiv s)
      · exact congrArg Except.ok (by simp)
      · rfl
    rw [List.map_cons, List.foldlM_cons, hkeep, Shape.dedupeOnto]
    refine (ih _).trans ?_
    split <;> rfl

theorem dedupe_whole (shapes : List Shape) :
    dedupe (shapes.map .whole) = .ok ((Shape.dedupe shapes).map .whole) :=
  foldlM_keep_whole [] shapes

theorem wholeFields?_heldFields (fs : List (Text × Shape)) :
    wholeFields? (heldFields (fun s => some (whole s)) fs) = some fs := by
  rw [wholeFields?, heldFields]
  induction fs with
  | nil => rfl
  | cons f rest ih =>
    rw [List.map_cons, List.mapM_cons, ih]
    rfl

theorem mapM_shape?_whole (xs : List Shape) : (xs.map whole).mapM shape? = some xs := by
  induction xs with
  | nil => rfl
  | cons x rest ih =>
    rw [List.map_cons, List.mapM_cons, ih]
    rfl

/-- What is put together from shapes only is a shape. -/
theorem assemble_whole (leaves : List Leaf) (fields : Option (List (Text × Shape)))
    (items : Option (List Shape)) :
    assemble leaves (fields.map (heldFields fun s => some (whole s)))
      (items.map (List.map whole)) = .whole ⟨leaves, fields, items⟩ := by
  have hfields : (fields.map (heldFields fun s => some (whole s))).mapM wholeFields? =
      some fields := by
    cases fields with
    | none => rfl
    | some fs =>
      rw [Option.map_some, Option.mapM_some, wholeFields?_heldFields]
      rfl
  have hitems : ((items.map (List.map whole)).mapM fun items => items.mapM shape?) =
      some items := by
    cases items with
    | none => rfl
    | some xs =>
      rw [Option.map_some, Option.mapM_some, mapM_shape?_whole]
      rfl
  rw [assemble, hfields, hitems]

theorem withLeaf_whole (l : Leaf) (s : Shape) :
    withLeaf l (.whole s) = .whole (s.withLeaf l) := by
  unfold withLeaf Shape.withLeaf
  by_cases hl : l ∈ s.leaves
  · rw [if_pos hl]
    exact if_pos hl
  · rw [if_neg hl]
    exact (if_neg hl).trans (assemble_whole _ _ _)

/-- **Sketches without gaps follow the shapes that they are.** -/
theorem follows : joinery.Follows whole (fun s => some (whole s)) where
  leaves _ := rfl
  fields _ := rfl
  items _ := rfl
  depth s := by
    show depth (.whole s) = _
    rw [depth]
  placeholder := rfl
  isPlaceholder _ := rfl
  equiv _ _ := rfl
  dedupe := dedupe_whole
  joinShared j name s t u hj := by
    show (do return some (← j (.whole s) (.whole t))) = _
    rw [hj]
    rfl
  makeOptional s _ := congrArg (fun k => Except.ok (some k)) (withLeaf_whole .undefined s)
  assemble leaves fields items _ := congrArg Except.ok (assemble_whole leaves fields items)

theorem join_whole {a b : Shape} (ha : a.Formed) (hb : b.Formed) :
    join (.whole a) (.whole b) = .ok (.whole (a.join b)) :=
  follows.join ha hb

theorem joinAll_whole {s : Shape} {rest : List Shape} (hs : s.Formed)
    (hrest : ∀ t ∈ rest, t.Formed) :
    joinAll ((s :: rest).map .whole) = .ok (.whole (s.joinAll rest)) := by
  rw [List.map_cons, joinAll, follows.joinAll hs hrest]
  rfl

end Sketch
end SampleShape
