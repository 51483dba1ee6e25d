/-
# The join without its bound

`Shape.join` is `joinAt` with the depth of its arguments as a bound on the
recursion.  The items that are joined into one are not parts of the arguments, so
that this bound is enough rests on the depth of the joins themselves: no join is
deeper than the deeper of its two sides (`depth_joinAt_le`).  Hence a larger bound
gives the same shape (`joinAt_eq_joinAt`), and the join satisfies the equation that
its description states (`join_eq`).  From then on the bound does not occur.

The rest of the module says what is in a join: its kinds, the field under each name
(`field?_joinFields`), its items (`mem_joinItems`), and that a property of all parts
of both sides is one of all parts of the join if a single step keeps it
(`Everywhere.join`).
-/

import Mathlib.Data.List.Basic
import SampleShape.Proofs.Equivalence
import SampleShape.Shape.Join

namespace SampleShape
namespace Shape

variable {j j' : Shape → Shape → Shape}

/-! ### Steps -/

theorem withLeafBy_pure (l : Leaf) (s : Shape) :
    (withLeafBy (m := Id) pure l s).run = s.withLeaf l := by
  unfold withLeafBy withLeaf
  split <;> rfl

/-- The shared fields are those of the left that are found on the right. -/
theorem shared_eq (j : Shape → Shape → Shape) (fs gs : List (Text × Shape)) :
    ((fs.filter fun f => hasField f.1 gs).map fun f =>
        (f.1, (field? f.1 gs).elim f.2 (j f.2))) =
      fs.filterMap fun f => (field? f.1 gs).map fun t => (f.1, j f.2 t) := by
  induction fs with
  | nil => rfl
  | cons f rest ih =>
    rw [List.filterMap_cons, List.filter_cons, ← ih]
    cases ht : field? f.1 gs with
    | none =>
      have hno : ¬ hasField f.1 gs = true := fun hf => field?_eq_none_iff.1 ht (hasField_iff.1 hf)
      rw [if_neg hno]
      rfl
    | some t =>
      have hyes : hasField f.1 gs = true := hasField_iff.2 (mem_names_of_field? ht)
      rw [if_pos hyes, List.map_cons, ht]
      rfl

theorem joinFields_eq (j : Shape → Shape → Shape) (fs gs : List (Text × Shape)) :
    joinFields j fs gs =
      (fs.filterMap fun f => (field? f.1 gs).map fun t => (f.1, j f.2 t)) ++
        (fs.filter (fun f => !hasField f.1 gs) ++ gs.filter fun g => !hasField g.1 fs).map fun f =>
          (f.1, f.2.withLeaf .undefined) := by
  have hshared : ∀ f : Text × Shape, (plainJoinery.joinShared (fun s t => pure (j s t)) f.1 f.2
      (gs.lookup f.1)).run = (field? f.1 gs).elim f.2 (j f.2) := by
    intro f
    rw [field?]
    cases gs.lookup f.1 <;> rfl
  have hoptional : ∀ s : Shape, (plainJoinery.makeOptional s).run = s.withLeaf .undefined :=
    withLeafBy_pure .undefined
  rw [← shared_eq, joinFields, Joinery.joinFields]
  simp only [bind_pure_comp, Id.run_bind, List.idRun_mapM, Id.run_map, hshared, hoptional]

@[simp] theorem joinRow_nil : joinRow j [] = [] := rfl

@[simp] theorem joinRow_cons (s : Shape) (rest : List Shape) :
    joinRow j (s :: rest) = [rest.foldl j s] := by
  rw [joinRow, Joinery.joinRow]
  simp

theorem joinItems_eq (j : Shape → Shape → Shape) (xs ys : List Shape) :
    joinItems j xs ys = if (pool xs ys).isEmpty then [unknown]
      else pooledLeaves xs ys ++ joinRow j (pooledObjects xs ys) ++
        joinRow j (pooledArrays xs ys) := by
  rw [joinItems, Joinery.joinItems]
  show (if (pool xs ys).isEmpty then _ else _ : Id _).run = _
  split <;> rfl

section Contents

variable {α : Type} {f : α → α → α}

@[simp] theorem joinContent_some (x y : α) :
    joinContent f (some x) (some y) = some (f x y) := rfl

@[simp] theorem joinContent_none_left (y? : Option α) : joinContent f none y? = y? := rfl

@[simp] theorem joinContent_none_right (x? : Option α) : joinContent f x? none = x? := by
  cases x? <;> rfl

end Contents

theorem joinWith_eq (a b : Shape) : joinWith j a b = if a.equiv b then a else
    ⟨joinLeaves a.leaves b.leaves, joinContent (joinFields j) a.fields b.fields,
      joinContent (joinItems j) a.items b.items⟩ := by
  rw [joinWith, Joinery.joinWith]
  show (if a.equiv b then _ else _ : Id _).run = _
  split <;> rfl

theorem joinAll_eq (s : Shape) (rest : List Shape) : joinAll s rest = rest.foldl join s := by
  rw [joinAll, Joinery.joinAll, List.idRun_foldlM]
  rfl

/-! ### Fields -/

theorem field?_filter (p : Text → Bool) (fs : List (Text × Shape)) (k : Text) :
    field? k (fs.filter fun f => p f.1) = if p k then field? k fs else none := by
  induction fs with
  | nil => simp
  | cons f rest ih =>
    rw [List.filter_cons]
    by_cases hk : k = f.1
    · subst hk
      by_cases hp : p f.1 <;> simp [hp, field?_cons, ih]
    · by_cases hp : p f.1 <;> simp [hp, field?_cons, hk, ih]

theorem field?_map (g : Shape → Shape) (fs : List (Text × Shape)) (k : Text) :
    field? k (fs.map fun f => (f.1, g f.2)) = (field? k fs).map g := by
  induction fs with
  | nil => simp
  | cons f rest ih =>
    rw [List.map_cons, field?_cons, field?_cons, ih]
    by_cases hk : k = f.1 <;> simp [hk]

theorem field?_shared (j : Shape → Shape → Shape) (fs gs : List (Text × Shape)) (k : Text) :
    field? k (fs.filterMap fun f => (field? f.1 gs).map fun t => (f.1, j f.2 t)) =
      (field? k fs).bind fun s => (field? k gs).map fun t => j s t := by
  induction fs with
  | nil => simp
  | cons f rest ih =>
    rw [field?_cons, List.filterMap_cons]
    by_cases hk : k = f.1
    · subst hk
      cases hg : field? f.1 gs with
      | none => simpa [hg] using ih
      | some t => simp [field?_cons]
    · cases hg : field? f.1 gs <;> simp [field?_cons, hk, ih]

/-- **The fields of a join by name:** shared ones are joined, those of one side
become optional. -/
theorem field?_joinFields (j : Shape → Shape → Shape) (fs gs : List (Text × Shape)) (k : Text) :
    field? k (joinFields j fs gs) = match field? k fs, field? k gs with
      | some s, some t => some (j s t)
      | some s, none => some (s.withLeaf .undefined)
      | none, some t => some (t.withLeaf .undefined)
      | none, none => none := by
  have happ : ∀ ls rs : List (Text × Shape), field? k (ls ++ rs) = (field? k ls).or (field? k rs) :=
    fun _ _ => List.lookup_append
  have hmiss : ∀ ls : List (Text × Shape), (!hasField k ls) = (field? k ls).isNone := by
    intro ls
    rw [Bool.eq_iff_iff, Bool.not_eq_true', ← Bool.not_eq_true, hasField_iff,
      Option.isNone_iff_eq_none, field?_eq_none_iff]
  rw [joinFields_eq, happ, field?_shared, field?_map, happ, field?_filter (fun k => !hasField k gs),
    field?_filter (fun k => !hasField k fs), hmiss, hmiss]
  cases field? k fs <;> cases field? k gs <;> rfl

/-- A field of a join joins two fields of its name, or is one of a single side made
optional. -/
theorem mem_joinFields {fs gs : List (Text × Shape)} {f : Text × Shape}
    (h : f ∈ joinFields j fs gs) :
    (∃ s t, (f.1, s) ∈ fs ∧ (f.1, t) ∈ gs ∧ f.2 = j s t) ∨
      ∃ s, ((f.1, s) ∈ fs ∨ (f.1, s) ∈ gs) ∧ f.2 = s.withLeaf .undefined := by
  rw [joinFields_eq] at h
  rcases List.mem_append.1 h with h | h
  · obtain ⟨g, hg, hf⟩ := List.mem_filterMap.1 h
    obtain ⟨t, ht, rfl⟩ := Option.map_eq_some_iff.1 hf
    exact Or.inl ⟨g.2, t, hg, mem_of_field? ht, rfl⟩
  · obtain ⟨g, hg, rfl⟩ := List.mem_map.1 h
    refine Or.inr ⟨g.2, ?_, rfl⟩
    rcases List.mem_append.1 hg with hg | hg
    · exact Or.inl (List.mem_filter.1 hg).1
    · exact Or.inr (List.mem_filter.1 hg).1

/-! ### Items -/

theorem mem_of_mem_pool {xs ys : List Shape} {s : Shape} (h : s ∈ pool xs ys) :
    s ∈ xs ∨ s ∈ ys :=
  List.mem_append.1 (mem_of_mem_dedupe (List.mem_filter.1 h).1)

/-- Where it starts from: a row is joined into a fold over the shapes after its
first. -/
theorem mem_joinRow {row : List Shape} {s : Shape} :
    s ∈ joinRow j row ↔ ∃ x rest, row = x :: rest ∧ s = rest.foldl j x := by
  cases row with
  | nil => simp
  | cons x rest =>
    rw [joinRow_cons, List.mem_singleton]
    exact ⟨fun h => ⟨x, rest, rfl, h⟩, fun ⟨_, _, hrow, h⟩ => by cases hrow; exact h⟩

theorem mem_joinItems {xs ys : List Shape} {s : Shape} :
    s ∈ joinItems j xs ys ↔ (pool xs ys = [] ∧ s = unknown) ∨ s ∈ pooledLeaves xs ys ∨
      s ∈ joinRow j (pooledObjects xs ys) ∨ s ∈ joinRow j (pooledArrays xs ys) := by
  rw [joinItems_eq]
  by_cases h : pool xs ys = []
  · simp [h, pooledLeaves, pooledObjects, pooledArrays]
  · simp [h, List.isEmpty_iff]

/-- What holds of all shapes of a row, and of `j` of two shapes of which it holds,
holds of the fold. -/
theorem foldl_of_forall {P : Shape → Prop} (hj : ∀ x y, P x → P y → P (j x y))
    {rest : List Shape} {x : Shape} (hx : P x) (hrest : ∀ y ∈ rest, P y) :
    P (rest.foldl j x) := by
  induction rest generalizing x with
  | nil => exact hx
  | cons y rest ih =>
    rw [List.forall_mem_cons] at hrest
    exact ih (hj x y hx hrest.1) hrest.2

/-- What holds of shapes and is kept by the join of two holds of the join of all. -/
theorem joinAll_of_forall {P : Shape → Prop} (hjoin : ∀ x y, P x → P y → P (x.join y))
    {rest : List Shape} {s : Shape} (hs : P s) (hrest : ∀ t ∈ rest, P t) :
    P (joinAll s rest) := by
  rw [joinAll_eq]
  exact foldl_of_forall hjoin hs hrest

/-- The items of a join share what holds of the placeholder and of the items of both
sides, if `j` keeps it. -/
theorem forall_mem_joinItems {P : Shape → Prop} (hj : ∀ x y, P x → P y → P (j x y))
    (hunknown : P unknown) {xs ys : List Shape} (hx : ∀ x ∈ xs, P x) (hy : ∀ y ∈ ys, P y) :
    ∀ s ∈ joinItems j xs ys, P s := by
  have hpool : ∀ s ∈ pool xs ys, P s := fun s hs => (mem_of_mem_pool hs).elim (hx s) (hy s)
  have hrow : ∀ {row : List Shape}, (∀ s ∈ row, P s) → ∀ s ∈ joinRow j row, P s := by
    intro row hall s hs
    obtain ⟨x, rest, rfl, rfl⟩ := mem_joinRow.1 hs
    exact foldl_of_forall hj (hall x List.mem_cons_self)
      fun y hy => hall y (List.mem_cons_of_mem x hy)
  intro s hs
  rcases mem_joinItems.1 hs with ⟨-, rfl⟩ | hs | hs | hs
  · exact hunknown
  · exact hpool s (List.mem_filter.1 hs).1
  · exact hrow (fun s hs => hpool s (List.mem_filter.1 hs).1) s hs
  · exact hrow (fun s hs => hpool s (List.mem_filter.1 hs).1) s hs

/-! ### Depth -/

@[simp] theorem withLeaf_fields (l : Leaf) (s : Shape) : (s.withLeaf l).fields = s.fields := by
  unfold withLeaf
  split <;> rfl

@[simp] theorem withLeaf_items (l : Leaf) (s : Shape) : (s.withLeaf l).items = s.items := by
  unfold withLeaf
  split <;> rfl

theorem mem_withLeaf {l m : Leaf} {s : Shape} :
    m ∈ (s.withLeaf l).leaves ↔ m ∈ s.leaves ∨ m = l := by
  unfold withLeaf
  split
  · exact ⟨Or.inl, fun h => h.elim id fun hm => hm ▸ ‹_›⟩
  · simp

theorem depth_withLeaf (l : Leaf) (s : Shape) : (s.withLeaf l).depth = s.depth := by
  refine Nat.le_antisymm (depth_le_iff.2 ?_) (depth_le_iff.2 ?_)
  · rw [withLeaf_fields, withLeaf_items]
    exact depth_le_iff.1 (Nat.le_refl s.depth)
  · have h := depth_le_iff.1 (Nat.le_refl (s.withLeaf l).depth)
    rwa [withLeaf_fields, withLeaf_items] at h

theorem joinWith_of_equiv {a b : Shape} (h : a.equiv b) : joinWith j a b = a := by
  rw [joinWith_eq, if_pos h]

theorem joinWith_of_not_equiv {a b : Shape} (h : ¬ a.equiv b) :
    joinWith j a b = ⟨joinLeaves a.leaves b.leaves, joinContent (joinFields j) a.fields b.fields,
      joinContent (joinItems j) a.items b.items⟩ := by
  rw [joinWith_eq, if_neg h]

/-- Where contents are joined, they are there on both sides or come from one. -/
theorem joinContent_eq_some {α : Type} {f : α → α → α} {x? y? : Option α} {z : α} :
    joinContent f x? y? = some z ↔ (∃ x y, x? = some x ∧ y? = some y ∧ z = f x y) ∨
      (x? = some z ∧ y? = none) ∨ (x? = none ∧ y? = some z) := by
  cases x? <;> cases y? <;> simp [eq_comm]

/-- Joined fields are no deeper than those of both sides, if `j` makes none of them deeper. -/
theorem fieldsDepth_joinFields_le {fs gs : List (Text × Shape)}
    (hj : ∀ k s t, (k, s) ∈ fs → (k, t) ∈ gs → (j s t).depth ≤ max s.depth t.depth) :
    fieldsDepth (joinFields j fs gs) ≤ max (fieldsDepth fs) (fieldsDepth gs) := by
  refine fieldsDepth_le_iff.2 fun f hf => ?_
  rcases mem_joinFields hf with ⟨s, t, hs, ht, heq⟩ | ⟨s, hs, heq⟩
  · have h₁ : s.depth ≤ fieldsDepth fs := depth_le_fieldsDepth hs
    have h₂ : t.depth ≤ fieldsDepth gs := depth_le_fieldsDepth ht
    have h₃ := hj f.1 s t hs ht
    rw [heq]
    omega
  · have h₁ : s.depth ≤ fieldsDepth fs ∨ s.depth ≤ fieldsDepth gs :=
      hs.imp depth_le_fieldsDepth depth_le_fieldsDepth
    rw [heq, depth_withLeaf]
    omega

/-- A step that joins contents no deeper than they are makes no shape deeper. -/
theorem depth_joinWith_le (hj : ∀ x y, (j x y).depth ≤ max x.depth y.depth) (a b : Shape) :
    (joinWith j a b).depth ≤ max a.depth b.depth := by
  by_cases h : a.equiv b
  · rw [joinWith_of_equiv h]
    exact Nat.le_max_left _ _
  have hfields : ∀ {s : Shape} {fs}, s.fields = some fs → 1 + fieldsDepth fs ≤ s.depth :=
    fun hs => (depth_le_iff.1 (Nat.le_refl _)).1 _ hs
  have hitems : ∀ {s : Shape} {xs}, s.items = some xs → 1 + itemsDepth xs ≤ s.depth :=
    fun hs => (depth_le_iff.1 (Nat.le_refl _)).2 _ hs
  rw [joinWith_of_not_equiv h, depth_le_iff]
  constructor
  · intro hs heq
    rcases joinContent_eq_some.1 heq with ⟨fs, gs, ha, hb, rfl⟩ | ⟨ha, -⟩ | ⟨-, hb⟩
    · have hbound : fieldsDepth (joinFields j fs gs) ≤ max (fieldsDepth fs) (fieldsDepth gs) :=
        fieldsDepth_joinFields_le fun _ s t _ _ => hj s t
      have h₁ := hfields ha
      have h₂ := hfields hb
      omega
    · exact Nat.le_trans (hfields ha) (Nat.le_max_left _ _)
    · exact Nat.le_trans (hfields hb) (Nat.le_max_right _ _)
  · intro zs heq
    rcases joinContent_eq_some.1 heq with ⟨xs, ys, ha, hb, rfl⟩ | ⟨ha, -⟩ | ⟨-, hb⟩
    · have hbound : itemsDepth (joinItems j xs ys) ≤ max (itemsDepth xs) (itemsDepth ys) := by
        refine itemsDepth_le_iff.2 (forall_mem_joinItems ?_ (Nat.zero_le _) ?_ ?_)
        · intro x y hx hy
          have h₁ := hj x y
          omega
        · exact fun x hx => Nat.le_trans (depth_le_itemsDepth hx) (Nat.le_max_left _ _)
        · exact fun y hy => Nat.le_trans (depth_le_itemsDepth hy) (Nat.le_max_right _ _)
      have h₁ := hitems ha
      have h₂ := hitems hb
      omega
    · exact Nat.le_trans (hitems ha) (Nat.le_max_left _ _)
    · exact Nat.le_trans (hitems hb) (Nat.le_max_right _ _)

/-- **Joining never deepens:** a join is no deeper than the deeper of its sides,
whatever the bound. -/
theorem depth_joinAt_le : ∀ (n : Nat) (a b : Shape), (joinAt n a b).depth ≤ max a.depth b.depth
  | 0, _, _ => Nat.le_max_left _ _
  | n + 1, a, b => depth_joinWith_le (depth_joinAt_le n) a b

/-! ### The equation of the join -/

/-- A row is joined in one way by two functions that agree on shapes as deep as those
of the row, if one of them makes no shape deeper. -/
theorem joinRow_congr {n : Nat} (hj : ∀ x y, (j x y).depth ≤ max x.depth y.depth)
    (hagree : ∀ x y, x.depth ≤ n → y.depth ≤ n → j x y = j' x y) {row : List Shape}
    (hrow : ∀ x ∈ row, x.depth ≤ n) : joinRow j row = joinRow j' row := by
  have hfold : ∀ (rest : List Shape) (x : Shape), x.depth ≤ n → (∀ y ∈ rest, y.depth ≤ n) →
      rest.foldl j x = rest.foldl j' x := by
    intro rest
    induction rest with
    | nil => exact fun _ _ _ => rfl
    | cons y rest ih =>
      intro x hx hrest
      rw [List.forall_mem_cons] at hrest
      have hxy : (j x y).depth ≤ n := Nat.le_trans (hj x y) (Nat.max_le.2 ⟨hx, hrest.1⟩)
      rw [List.foldl_cons, List.foldl_cons, ih (j x y) hxy hrest.2, hagree x y hx hrest.1]
  cases row with
  | nil => rfl
  | cons x rest =>
    rw [List.forall_mem_cons] at hrow
    rw [joinRow_cons, joinRow_cons, hfold rest x hrow.1 hrow.2]

/-- The contents of two shapes are joined in one way by two functions that agree on
less deep shapes. -/
theorem joinWith_congr {a b : Shape} (hj : ∀ x y, (j x y).depth ≤ max x.depth y.depth)
    (hagree : ∀ x y, x.depth < max a.depth b.depth → y.depth < max a.depth b.depth →
      j x y = j' x y) : joinWith j a b = joinWith j' a b := by
  by_cases h : a.equiv b
  · rw [joinWith_of_equiv h, joinWith_of_equiv h]
  rw [joinWith_of_not_equiv h, joinWith_of_not_equiv h]
  congr 1
  · cases ha : a.fields with
    | none => rfl
    | some fs =>
      cases hb : b.fields with
      | none => rfl
      | some gs =>
        rw [joinContent_some, joinContent_some, joinFields_eq, joinFields_eq]
        refine congrArg some (congrArg (· ++ _) (List.filterMap_congr fun f hf => ?_))
        refine Option.map_congr fun t ht => ?_
        have h₁ : f.2.depth < a.depth := depth_lt_of_field ha hf
        have h₂ : t.depth < b.depth := depth_lt_of_field hb (mem_of_field? ht)
        rw [hagree f.2 t (by omega) (by omega)]
  · cases ha : a.items with
    | none => rfl
    | some xs =>
      cases hb : b.items with
      | none => rfl
      | some ys =>
        have hpool : ∀ x ∈ pool xs ys, x.depth ≤ max a.depth b.depth - 1 := by
          intro x hx
          have h₁ := (mem_of_mem_pool hx).imp (depth_lt_of_item ha) (depth_lt_of_item hb)
          omega
        have hpos : 0 < max a.depth b.depth := by
          have h₁ := (depth_le_iff.1 (Nat.le_refl a.depth)).2 xs ha
          omega
        have hrow : ∀ p : Shape → Bool,
            joinRow j ((pool xs ys).filter p) = joinRow j' ((pool xs ys).filter p) := by
          intro p
          refine joinRow_congr hj ?_ fun x hx => hpool x (List.mem_filter.1 hx).1
          exact fun x y hx hy => hagree x y (by omega) (by omega)
        simp only [joinContent_some, joinItems_eq, pooledObjects, pooledArrays, hrow]

/-- **The bound does not matter** once it exceeds the depth of both sides. -/
theorem joinAt_eq_joinAt :
    ∀ {n m : Nat} {a b : Shape}, max a.depth b.depth < n → max a.depth b.depth < m →
      joinAt n a b = joinAt m a b
  | n + 1, m + 1, a, b, hn, hm =>
      joinWith_congr (depth_joinAt_le n) fun x y hx hy =>
        joinAt_eq_joinAt (by omega) (by omega)

theorem depth_join_le (a b : Shape) : (a.join b).depth ≤ max a.depth b.depth :=
  depth_joinAt_le _ a b

/-- **The equation of the join:** contents are joined by the join itself. -/
theorem join_eq (a b : Shape) : a.join b = joinWith join a b :=
  joinWith_congr (depth_joinAt_le _) fun _ _ hx hy =>
    joinAt_eq_joinAt (Nat.max_lt.2 ⟨hx, hy⟩) (Nat.lt_succ_self _)

theorem join_of_equiv {a b : Shape} (h : a.equiv b) : a.join b = a := by
  rw [join_eq, joinWith_of_equiv h]

theorem join_of_not_equiv {a b : Shape} (h : ¬ a.equiv b) :
    a.join b = ⟨joinLeaves a.leaves b.leaves, joinContent (joinFields join) a.fields b.fields,
      joinContent (joinItems join) a.items b.items⟩ := by
  rw [join_eq, joinWith_of_not_equiv h]

/-! ### Kinds of a join -/

theorem mem_leaves_join {a b : Shape} {l : Leaf} :
    l ∈ (a.join b).leaves ↔ l ∈ a.leaves ∨ l ∈ b.leaves := by
  by_cases h : a.equiv b
  · rw [join_of_equiv h, ← mem_leaves_of_equiv h l, or_self]
  · rw [join_of_not_equiv h]
    by_cases hl : l ∈ a.leaves <;> simp [joinLeaves, hl]

theorem notMem_leaves_join {a b : Shape} {l : Leaf} (ha : l ∉ a.leaves) (hb : l ∉ b.leaves) :
    l ∉ (a.join b).leaves := by
  rw [mem_leaves_join]
  exact not_or.2 ⟨ha, hb⟩

theorem isObject_join (a b : Shape) : (a.join b).isObject = (a.isObject || b.isObject) := by
  by_cases h : a.equiv b
  · rw [join_of_equiv h, ← isObject_of_equiv h, Bool.or_self]
  · rw [join_of_not_equiv h, isObject, isObject, isObject]
    cases a.fields <;> cases b.fields <;> rfl

theorem isArray_join (a b : Shape) : (a.join b).isArray = (a.isArray || b.isArray) := by
  by_cases h : a.equiv b
  · rw [join_of_equiv h, ← isArray_of_equiv h, Bool.or_self]
  · rw [join_of_not_equiv h, isArray, isArray, isArray]
    cases a.items <;> cases b.items <;> rfl

theorem mem_kinds_join {a b : Shape} {k : Kind} :
    k ∈ (a.join b).kinds ↔ k ∈ a.kinds ∨ k ∈ b.kinds := by
  rw [mem_kinds_iff, mem_kinds_iff, mem_kinds_iff]
  cases k with
  | leaf l => exact mem_leaves_join
  | object => rw [isObject_join, Bool.or_eq_true]
  | array => rw [isArray_join, Bool.or_eq_true]

/-! ### Containers among items -/

/-- The two kinds of container. -/
inductive Container where
  | object
  | array

/-- Whether an item is joined with the items of a container; one that has fields and
items is joined with the objects. -/
def isContainer : Container → Shape → Bool
  | .object, s => s.isObject
  | .array, s => s.isArray && !s.isObject

theorem isContainer_unknown (c : Container) : isContainer c unknown = false := by
  cases c <;> rfl

theorem forall_not_isContainer_iff {s : Shape} :
    (∀ c, ¬ isContainer c s) ↔ s.isObject = false ∧ s.isArray = false := by
  constructor
  · intro h
    have hobj := h .object
    have harr := h .array
    simp_all [isContainer]
  · rintro ⟨hobj, harr⟩ c
    cases c <;> simp [isContainer, hobj, harr]

theorem isContainer_of_equiv {a b : Shape} (h : a.equiv b) (c : Container) :
    isContainer c a = isContainer c b := by
  cases c <;> simp only [isContainer, isObject_of_equiv h, isArray_of_equiv h]

theorem isContainer_join {a b : Shape} {c : Container} (ha : isContainer c a)
    (hb : isContainer c b) : isContainer c (a.join b) := by
  cases c <;> simp_all [isContainer, isObject_join, isArray_join]

/-- An item joined from a row is of the row's container. -/
theorem isContainer_of_mem_joinRow {c : Container} {row : List Shape} {s : Shape}
    (hrow : ∀ x ∈ row, isContainer c x) (h : s ∈ joinRow join row) : isContainer c s := by
  obtain ⟨x, rest, rfl, rfl⟩ := mem_joinRow.1 h
  rw [List.forall_mem_cons] at hrow
  exact foldl_of_forall (fun _ _ => isContainer_join) hrow.1 hrow.2

/-- **A join has at most one item of each container:** what the pooled ones are joined
into. -/
theorem filter_joinItems (c : Container) (xs ys : List Shape) :
    (joinItems join xs ys).filter (isContainer c) =
      joinRow join ((pool xs ys).filter (isContainer c)) := by
  have hrow : ∀ d, ∀ s ∈ joinRow join ((pool xs ys).filter (isContainer d)), isContainer d s :=
    fun d s hs => isContainer_of_mem_joinRow (fun x hx => (List.mem_filter.1 hx).2) hs
  have hleaf : (pooledLeaves xs ys).filter (isContainer c) = [] := by
    refine List.filter_eq_nil_iff.2 fun s hs => ?_
    have hs := (List.mem_filter.1 hs).2
    cases c <;> simp_all [isContainer]
  have hother : ∀ d, d ≠ c →
      (joinRow join ((pool xs ys).filter (isContainer d))).filter (isContainer c) = [] := by
    intro d hd
    refine List.filter_eq_nil_iff.2 fun s hs => ?_
    have hs := hrow d s hs
    cases c <;> cases d <;> simp_all [isContainer]
  rw [joinItems_eq]
  split
  · rename_i hpool
    rw [List.isEmpty_iff.1 hpool, List.filter_singleton, isContainer_unknown]
    rfl
  · change List.filter _ (pooledLeaves xs ys ++
      joinRow join ((pool xs ys).filter (isContainer .object)) ++
        joinRow join ((pool xs ys).filter (isContainer .array))) = _
    rw [List.filter_append, List.filter_append, hleaf, List.nil_append]
    -- the row of the container stays whole, the other one has nothing of it
    cases c with
    | object => rw [List.filter_eq_self.2 (hrow .object), hother .array nofun, List.append_nil]
    | array => rw [List.filter_eq_self.2 (hrow .array), hother .object nofun, List.nil_append]

/-! ### Items of a join -/

section Items

variable {P : Shape → Prop} {xs ys : List Shape}

theorem eq_unknown_of_isPlaceholder {s : Shape} (h : s.isPlaceholder) : s = unknown := by
  unfold isPlaceholder at h
  split at h
  · rfl
  · cases h

/-- What equivalent shapes have in common and the placeholder has not, holds of a
pooled item exactly when it holds of an item of either side. -/
theorem exists_mem_pool_iff (hequiv : ∀ {s t : Shape}, s.equiv t → (P s ↔ P t))
    (hunknown : ¬ P unknown) : (∃ s ∈ pool xs ys, P s) ↔ ∃ s ∈ xs ++ ys, P s := by
  refine Iff.trans ?_ (exists_mem_dedupe_iff hequiv)
  constructor
  · rintro ⟨s, hs, h⟩
    exact ⟨s, (List.mem_filter.1 hs).1, h⟩
  · rintro ⟨s, hs, h⟩
    refine ⟨s, List.mem_filter.2 ⟨hs, ?_⟩, h⟩
    rw [Bool.not_eq_true', ← Bool.not_eq_true]
    intro hp
    exact hunknown (eq_unknown_of_isPlaceholder hp ▸ h)

/-- What `j` passes on from either side holds of a joined row if it holds of a shape
of the row. -/
theorem exists_mem_joinRow (hj : ∀ x y, P x ∨ P y → P (j x y)) {row : List Shape}
    (h : ∃ s ∈ row, P s) : ∃ s ∈ joinRow j row, P s := by
  have hfold : ∀ (rest : List Shape) (x : Shape), (P x ∨ ∃ y ∈ rest, P y) →
      P (rest.foldl j x) := by
    intro rest
    induction rest with
    | nil => simp
    | cons y rest ih =>
      intro x hx
      refine ih (j x y) ?_
      rcases hx with hx | ⟨z, hz, hPz⟩
      · exact Or.inl (hj x y (Or.inl hx))
      · rcases List.mem_cons.1 hz with rfl | hz
        · exact Or.inl (hj x z (Or.inr hPz))
        · exact Or.inr ⟨z, hz, hPz⟩
  obtain ⟨s, hs, hPs⟩ := h
  cases row with
  | nil => cases hs
  | cons x rest =>
    refine ⟨rest.foldl j x, by rw [joinRow_cons, List.mem_singleton], hfold rest x ?_⟩
    rcases List.mem_cons.1 hs with rfl | hs
    · exact Or.inl hPs
    · exact Or.inr ⟨s, hs, hPs⟩

/-- What `j` has from one of its sides only holds of a shape of a row if it holds of
the joined row. -/
theorem exists_of_mem_joinRow (hj : ∀ x y, P (j x y) → P x ∨ P y) {row : List Shape}
    (h : ∃ s ∈ joinRow j row, P s) : ∃ s ∈ row, P s := by
  have hfold : ∀ (rest : List Shape) (x : Shape), P (rest.foldl j x) →
      P x ∨ ∃ y ∈ rest, P y := by
    intro rest
    induction rest with
    | nil => simp
    | cons y rest ih =>
      intro x hx
      rcases ih (j x y) hx with hxy | ⟨z, hz, hPz⟩
      · rcases hj x y hxy with hx | hy
        · exact Or.inl hx
        · exact Or.inr ⟨y, List.mem_cons_self, hy⟩
      · exact Or.inr ⟨z, List.mem_cons_of_mem y hz, hPz⟩
  obtain ⟨s, hs, hPs⟩ := h
  obtain ⟨x, rest, rfl, rfl⟩ := mem_joinRow.1 hs
  rcases hfold rest x hPs with hx | ⟨y, hy, hPy⟩
  · exact ⟨x, List.mem_cons_self, hx⟩
  · exact ⟨y, List.mem_cons_of_mem x hy, hPy⟩

/-- A pooled item is itself an item of the join, or joined with others of its kind. -/
theorem exists_mem_joinItems_of_pool (hj : ∀ x y, P x ∨ P y → P (j x y))
    (h : ∃ s ∈ pool xs ys, P s) : ∃ s ∈ joinItems j xs ys, P s := by
  obtain ⟨s, hs, hPs⟩ := h
  by_cases hobj : s.isObject
  · obtain ⟨t, ht, hPt⟩ := exists_mem_joinRow hj ⟨s, List.mem_filter.2 ⟨hs, hobj⟩, hPs⟩
    exact ⟨t, mem_joinItems.2 (Or.inr (Or.inr (Or.inl ht))), hPt⟩
  by_cases harr : s.isArray
  · have hmem : s ∈ pooledArrays xs ys := List.mem_filter.2 ⟨hs, by simp [hobj, harr]⟩
    obtain ⟨t, ht, hPt⟩ := exists_mem_joinRow hj ⟨s, hmem, hPs⟩
    exact ⟨t, mem_joinItems.2 (Or.inr (Or.inr (Or.inr ht))), hPt⟩
  · have hmem : s ∈ pooledLeaves xs ys := List.mem_filter.2 ⟨hs, by simp [hobj, harr]⟩
    exact ⟨s, mem_joinItems.2 (Or.inr (Or.inl hmem)), hPs⟩

/-- **Items of either side are covered by the join:** what equivalent shapes have in
common, the placeholder has not and `j` passes on holds of a joined item if it holds
of an item of either side. -/
theorem exists_mem_joinItems (hequiv : ∀ {s t : Shape}, s.equiv t → (P s ↔ P t))
    (hunknown : ¬ P unknown) (hj : ∀ x y, P x ∨ P y → P (j x y))
    (h : ∃ s ∈ xs ++ ys, P s) : ∃ s ∈ joinItems j xs ys, P s :=
  exists_mem_joinItems_of_pool hj ((exists_mem_pool_iff hequiv hunknown).2 h)

/-- **The items of a join have what those of either side have,** if equivalent shapes
have it in common, the placeholder has not, and `j` has what either of its sides has. -/
theorem exists_mem_joinItems_iff (hequiv : ∀ {s t : Shape}, s.equiv t → (P s ↔ P t))
    (hunknown : ¬ P unknown) (hj : ∀ x y, P (j x y) ↔ P x ∨ P y) :
    (∃ s ∈ joinItems j xs ys, P s) ↔ ∃ s ∈ xs ++ ys, P s := by
  refine ⟨?_, exists_mem_joinItems hequiv hunknown fun x y => (hj x y).2⟩
  rintro ⟨s, hs, hP⟩
  rw [← exists_mem_pool_iff hequiv hunknown]
  -- a joined item comes from one of the pooled items that it was joined from
  have hrow : ∀ {p : Shape → Bool}, s ∈ joinRow j ((pool xs ys).filter p) →
      ∃ t ∈ pool xs ys, P t := by
    intro p hs
    obtain ⟨t, ht, hPt⟩ := exists_of_mem_joinRow (fun x y => (hj x y).1) ⟨s, hs, hP⟩
    exact ⟨t, (List.mem_filter.1 ht).1, hPt⟩
  rcases mem_joinItems.1 hs with ⟨-, rfl⟩ | hs | hs | hs
  · exact absurd hP hunknown
  · exact ⟨s, (List.mem_filter.1 hs).1, hP⟩
  · exact hrow hs
  · exact hrow hs

/-- **The containers among joined items** have between them what those of both sides
have, if a join has what either side has. -/
theorem exists_container_joinItems (hequiv : ∀ {s t : Shape}, s.equiv t → (P s ↔ P t))
    (hj : ∀ x y, P (x.join y) ↔ P x ∨ P y) (c : Container) :
    (∃ s ∈ joinItems join xs ys, isContainer c s ∧ P s) ↔
      ∃ s ∈ xs ++ ys, isContainer c s ∧ P s := by
  have hfilter : ∀ {zs : List Shape},
      (∃ s ∈ zs, isContainer c s ∧ P s) ↔ ∃ s ∈ zs.filter (isContainer c), P s := by
    intro zs
    simp only [List.mem_filter, and_assoc]
  have hunknown : ¬ (isContainer c unknown ∧ P unknown) := by simp [isContainer_unknown]
  rw [← exists_mem_pool_iff (fun h => by rw [isContainer_of_equiv h, hequiv h]) hunknown,
    hfilter, hfilter, filter_joinItems]
  exact ⟨exists_of_mem_joinRow fun x y => (hj x y).1, exists_mem_joinRow fun x y => (hj x y).2⟩

/-- The items of a join that are no containers are those of the pool. -/
theorem exists_leaf_joinItems (hequiv : ∀ {s t : Shape}, s.equiv t → (P s ↔ P t))
    (hunknown : ¬ P unknown) (hleaf : ∀ s, P s → ∀ c, ¬ isContainer c s) :
    (∃ s ∈ joinItems join xs ys, P s) ↔ ∃ s ∈ xs ++ ys, P s := by
  rw [← exists_mem_pool_iff hequiv hunknown]
  have hrow : ∀ {c : Container} {s : Shape},
      s ∈ joinRow join ((pool xs ys).filter (isContainer c)) → ¬ P s := fun hs hP =>
    hleaf _ hP _ (isContainer_of_mem_joinRow (fun x hx => (List.mem_filter.1 hx).2) hs)
  constructor
  · rintro ⟨s, hs, hP⟩
    rcases mem_joinItems.1 hs with ⟨-, rfl⟩ | hs | hs | hs
    · exact absurd hP hunknown
    · exact ⟨s, (List.mem_filter.1 hs).1, hP⟩
    · exact absurd hP (hrow (c := .object) hs)
    · exact absurd hP (hrow (c := .array) hs)
  · rintro ⟨s, hs, hP⟩
    obtain ⟨hobj, harr⟩ := forall_not_isContainer_iff.1 (hleaf s hP)
    have hmem : s ∈ pooledLeaves xs ys := List.mem_filter.2 ⟨hs, by simp [hobj, harr]⟩
    exact ⟨s, mem_joinItems.2 (Or.inr (Or.inl hmem)), hP⟩

end Items

/-! ### Properties of all parts of a join -/

namespace Everywhere

variable {p : Shape → Prop}

theorem unknown (h : p Shape.unknown) : Everywhere p Shape.unknown :=
  .intro h nofun nofun

theorem withLeaf {l : Leaf} (hp : ∀ s, p s → p (s.withLeaf l)) {s : Shape}
    (h : Everywhere p s) : Everywhere p (s.withLeaf l) := by
  refine .intro (hp s h.here) ?_ ?_
  · rw [withLeaf_fields]
    exact fun _ hs _ hf => h.field hs hf
  · rw [withLeaf_items]
    exact fun _ hs _ hx => h.item hs hx

/-- **A step that keeps a property keeps it in all parts of a join.**  It has to hold
of the placeholder and of a field made optional, and a step may use that it holds
everywhere in both sides. -/
theorem join (hoptional : ∀ s, p s → p (s.withLeaf .undefined)) (hunknown : p Shape.unknown)
    (hstep : ∀ a b, Everywhere p a → Everywhere p b → ¬ a.equiv b → p (a.join b))
    {a b : Shape} (ha : Everywhere p a) (hb : Everywhere p b) : Everywhere p (a.join b) := by
  -- joined items are no parts of `a` and `b`, but they are less deep
  induction a, b using induct₂ with
  | step a b ih =>
    by_cases h : a.equiv b
    · rwa [join_of_equiv h]
    refine .intro (hstep a b ha hb h) ?_ ?_
    · intro hs heq f hf
      rw [join_of_not_equiv h] at heq
      rcases joinContent_eq_some.1 heq with ⟨fs, gs, hfs, hgs, rfl⟩ | ⟨hfs, -⟩ | ⟨-, hgs⟩
      · rcases mem_joinFields hf with ⟨s, t, hs, ht, heq⟩ | ⟨s, hs, heq⟩
        · have h₁ : s.depth < a.depth := depth_lt_of_field hfs hs
          have h₂ : t.depth < b.depth := depth_lt_of_field hgs ht
          rw [heq]
          exact ih s t (by omega) (by omega) (ha.field hfs hs) (hb.field hgs ht)
        · rw [heq]
          exact withLeaf hoptional (hs.elim (ha.field hfs) (hb.field hgs))
      · exact ha.field hfs hf
      · exact hb.field hgs hf
    · intro zs heq z hz
      rw [join_of_not_equiv h] at heq
      rcases joinContent_eq_some.1 heq with ⟨xs, ys, hxs, hys, rfl⟩ | ⟨hxs, -⟩ | ⟨-, hys⟩
      · have hall : ∀ s ∈ joinItems Shape.join xs ys,
            s.depth < max a.depth b.depth ∧ Everywhere p s := by
          have hpos := (depth_le_iff.1 (Nat.le_refl a.depth)).2 xs hxs
          have hzero : Shape.unknown.depth = 0 := rfl
          refine forall_mem_joinItems ?_ ⟨by omega, unknown hunknown⟩ ?_ ?_
          · intro x y hx hy
            have hle := depth_join_le x y
            exact ⟨by omega, ih x y hx.1 hy.1 hx.2 hy.2⟩
          · intro x hx
            have hlt := depth_lt_of_item hxs hx
            exact ⟨by omega, ha.item hxs hx⟩
          · intro y hy
            have hlt := depth_lt_of_item hys hy
            exact ⟨by omega, hb.item hys hy⟩
        exact (hall z hz).2
      · exact ha.item hxs hz
      · exact hb.item hys hz

end Everywhere

end Shape
end SampleShape
