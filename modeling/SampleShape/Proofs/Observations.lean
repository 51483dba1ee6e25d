/-
# What a shape shows

A shape answers questions one at a time: has this kind been seen, does this name
occur among the fields, and the same again at a field or at an item.  Each question
is a `Fact`, and `Shows` says which facts a shape shows.

Two choices make the facts fit for joins.  An object shows that a field it has not
got may be unfilled, since that is what a join makes of it.  The placeholder, which a
join drops, shows nothing as an item; and items that a join keeps apart are told apart
by all their leaf kinds at once (`Fact.leafItem`), items that it folds into one are
not told apart at all (`Fact.item`).

Equivalent shapes show the same facts (`shows_congr`), and a join shows exactly what
either side shows (`shows_join`).  The second holds for all shapes, also where the
join depends on the order of its arguments.
-/

import SampleShape.Proofs.Samples
import SampleShape.Proofs.Joining

namespace SampleShape

/-- A single observation. -/
inductive Fact where
  | kind (k : Kind)
  | name (k : Text)
  | field (k : Text) (f : Fact)
  | leafItem (leaves : List Leaf)
  | item (c : Shape.Container) (f : Fact)

namespace Shape

/-- The shapes of items; there are none where no array was observed. -/
def itemList (s : Shape) : List Shape := s.items.getD []

/-- Whether an item is no container, has just the given leaf kinds, and holds
information. -/
def HasLeaves (ls : List Leaf) (s : Shape) : Prop :=
  (∀ c, ¬ isContainer c s) ∧ (∀ l, l ∈ s.leaves ↔ l ∈ ls) ∧ ∃ l ∈ ls, l ≠ .unknown

/-- Whether a shape shows a fact. -/
def Shows : Fact → Shape → Prop
  | .kind k, s => k ∈ s.kinds
  | .name k, s => ∃ fs, s.fields = some fs ∧ k ∈ names fs
  | .field k f, s => ∃ fs, s.fields = some fs ∧
      ((∃ t, field? k fs = some t ∧ Shows f t) ∨
        (field? k fs = none ∧ f = .kind (.leaf .undefined)))
  | .leafItem ls, s => ∃ x ∈ s.itemList, HasLeaves ls x
  | .item c f, s => ∃ x ∈ s.itemList, isContainer c x ∧ Shows f x

theorem itemList_eq {s : Shape} {xs : List Shape} (h : s.items = some xs) : s.itemList = xs := by
  rw [itemList, h]
  rfl

theorem hasLeaves_congr {a b : Shape} (h : a.equiv b) (ls : List Leaf) :
    HasLeaves ls a ↔ HasLeaves ls b := by
  unfold HasLeaves
  simp only [isContainer_of_equiv h, mem_leaves_of_equiv h]

theorem not_hasLeaves_unknown (ls : List Leaf) : ¬ HasLeaves ls unknown := by
  rintro ⟨-, hall, l, hl, hne⟩
  exact hne (List.mem_singleton.1 ((hall l).2 hl))

/-! ### Equivalent shapes -/

/-- What equivalent shapes have in common holds of an item of both or of neither. -/
theorem exists_mem_itemList_congr {P : Shape → Prop}
    (hP : ∀ {s t : Shape}, s.equiv t → (P s ↔ P t)) {a b : Shape} (h : a.equiv b) :
    (∃ x ∈ a.itemList, P x) ↔ ∃ y ∈ b.itemList, P y := by
  unfold itemList
  cases hxs : a.items with
  | none => rw [items_eq_none_of_equiv h hxs]
  | some xs =>
    obtain ⟨ys, hys, hxy, hyx⟩ := exists_items_of_equiv h hxs
    rw [hys]
    constructor
    · rintro ⟨x, hx, hPx⟩
      obtain ⟨y, hy, hequiv⟩ := hxy x hx
      exact ⟨y, hy, (hP hequiv).1 hPx⟩
    · rintro ⟨y, hy, hPy⟩
      obtain ⟨x, hx, hequiv⟩ := hyx y hy
      exact ⟨x, hx, (hP hequiv).2 hPy⟩

/-- **Equivalent shapes show the same facts.** -/
theorem shows_congr {a b : Shape} (h : a.equiv b) (f : Fact) : a.Shows f ↔ b.Shows f := by
  induction f generalizing a b with
  | kind k => exact mem_kinds_of_equiv h k
  | name k =>
    refine exists_fields_congr h fun fs gs hfs hgs => ?_
    obtain ⟨gs', hgs', hnames, -⟩ := exists_fields_of_equiv h hfs
    obtain rfl : gs' = gs := Option.some.inj (hgs'.symm.trans hgs)
    exact hnames k
  | field k f ih =>
    refine exists_fields_congr h fun fs gs hfs hgs => ?_
    rcases field?_of_equiv h hfs hgs k with ⟨hs, ht⟩ | ⟨s, t, hs, ht, hst⟩
    · simp [hs, ht]
    · simp [hs, ht, ih hst]
  | leafItem ls => exact exists_mem_itemList_congr (fun h => hasLeaves_congr h ls) h
  | item c f ih =>
    exact exists_mem_itemList_congr (fun h => by rw [isContainer_of_equiv h, ih h]) h

/-! ### Joins -/

/-- A place that may be unfilled shows just that besides. -/
theorem shows_withLeaf (s : Shape) (f : Fact) :
    (s.withLeaf .undefined).Shows f ↔ s.Shows f ∨ f = .kind (.leaf .undefined) := by
  cases f with
  | kind k =>
    simp only [Shows, mem_kinds_iff, Fact.kind.injEq]
    cases k with
    | leaf l => simp [mem_withLeaf]
    | object => simp [isObject]
    | array => simp [isArray]
  | name k => simp [Shows]
  | field k f => simp [Shows]
  | leafItem ls => simp [Shows, itemList]
  | item c f => simp [Shows, itemList]

theorem mem_names_joinFields {fs gs : List (Text × Shape)} {k : Text} :
    k ∈ names (joinFields join fs gs) ↔ k ∈ names fs ∨ k ∈ names gs := by
  rw [mem_names_iff, mem_names_iff, mem_names_iff, field?_joinFields]
  cases field? k fs <;> cases field? k gs <;> simp

/-- Facts about the items of a join are those about the items of both sides. -/
theorem exists_mem_itemList_join {P : Shape → Prop} {a b : Shape} (h : ¬ a.equiv b)
    (hP : ∀ {xs ys : List Shape},
      (∃ s ∈ joinItems join xs ys, P s) ↔ ∃ s ∈ xs ++ ys, P s) :
    (∃ s ∈ (a.join b).itemList, P s) ↔ (∃ x ∈ a.itemList, P x) ∨ ∃ y ∈ b.itemList, P y := by
  have happ : (∃ s ∈ a.itemList ++ b.itemList, P s) ↔
      (∃ x ∈ a.itemList, P x) ∨ ∃ y ∈ b.itemList, P y := by
    simp only [List.mem_append, or_and_right, exists_or]
  rw [← happ, join_of_not_equiv h]
  unfold itemList
  cases a.items with
  | none => simp
  | some xs =>
    cases b.items with
    | none => simp
    | some ys => exact hP

/-- **A join shows what either side shows,** and nothing else. -/
theorem shows_join (a b : Shape) (f : Fact) : (a.join b).Shows f ↔ a.Shows f ∨ b.Shows f := by
  induction f generalizing a b with
  | kind k => exact mem_kinds_join
  | name k =>
    by_cases h : a.equiv b
    · rw [join_of_equiv h, ← shows_congr h, or_self]
    rw [join_of_not_equiv h]
    simp only [Shows]
    cases a.fields <;> cases b.fields <;> simp [mem_names_joinFields]
  | field k f ih =>
    by_cases h : a.equiv b
    · rw [join_of_equiv h, ← shows_congr h, or_self]
    rw [join_of_not_equiv h]
    simp only [Shows]
    cases a.fields with
    | none => simp
    | some fs =>
      cases b.fields with
      | none => simp
      | some gs =>
        -- a name of one side only shows on the other that it may be unfilled
        simp only [joinContent_some, Option.some.injEq, exists_eq_left', field?_joinFields]
        cases field? k fs <;> cases field? k gs <;> simp [ih, shows_withLeaf, or_comm]
  | leafItem ls =>
    by_cases h : a.equiv b
    · rw [join_of_equiv h, ← shows_congr h, or_self]
    exact exists_mem_itemList_join h (exists_leaf_joinItems (fun h => hasLeaves_congr h ls)
      (not_hasLeaves_unknown ls) fun _ hs => hs.1)
  | item c f ih =>
    by_cases h : a.equiv b
    · rw [join_of_equiv h, ← shows_congr h, or_self]
    exact exists_mem_itemList_join h
      (exists_container_joinItems (fun h => shows_congr h f) (fun x y => ih x y) c)

/-- What a join has exactly when either side has it, the join of many shapes has exactly
when one of them has it. -/
theorem joinAll_iff {P : Shape → Prop} (hjoin : ∀ x y : Shape, P (x.join y) ↔ P x ∨ P y)
    {s : Shape} {rest : List Shape} : P (joinAll s rest) ↔ ∃ t ∈ s :: rest, P t := by
  have hrow : P (joinAll s rest) ↔ ∃ t ∈ joinRow join (s :: rest), P t := by
    simp [joinAll_eq]
  rw [hrow]
  exact ⟨exists_of_mem_joinRow fun x y => (hjoin x y).1,
    exists_mem_joinRow fun x y => (hjoin x y).2⟩

/-- The same of the shapes of samples. -/
theorem joinAll_form_iff {P : Shape → Prop} (hjoin : ∀ x y : Shape, P (x.join y) ↔ P x ∨ P y)
    {v : Value} {rest : List Value} :
    P (joinAll v.form (rest.map Value.form)) ↔ ∃ w ∈ v :: rest, P w.form := by
  rw [joinAll_iff hjoin, ← List.map_cons]
  simp only [List.mem_map, exists_exists_and_eq_and]

/-- The join of the shapes of samples shows what the shape of one of them shows. -/
theorem shows_joinAll_form {v : Value} {rest : List Value} {f : Fact} :
    (joinAll v.form (rest.map Value.form)).Shows f ↔ ∃ w ∈ v :: rest, w.form.Shows f :=
  joinAll_form_iff fun x y => shows_join x y f

end Shape
end SampleShape
