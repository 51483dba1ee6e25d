/-
# Leaf kinds in the order of their first observation

A shape lists its leaf kinds in the order in which they were first observed, and a join of
many shapes keeps to this at every place that a path of names leads to: what is listed there
is what the joined shapes list there, one after the other, each kind where it comes first.
The mark of a place that may be unfilled is left out of the order, as it is put in wherever a
join finds that one side has no such field.

Every shape says at most one thing about a place: its leaf kinds there, or nothing
(`leavesAt`).  What a join says follows from what its two sides say (`leavesAt_join`), whether
they are found equivalent, have their fields joined, or have one field taken over from one of
them.  From this step the order is carried through the joins of a list
(`leavesAt_foldl_eq_gathered`).
-/

import SampleShape.Proofs.Optionality
import SampleShape.Proofs.Rearrangement

namespace SampleShape
namespace Shape

/-- The leaf kinds of a shape in order, without the mark that it may be unfilled. -/
def filledLeaves (s : Shape) : List Leaf := s.leaves.filter (· ≠ .undefined)

theorem mem_filledLeaves {s : Shape} {l : Leaf} :
    l ∈ s.filledLeaves ↔ l ∈ s.leaves ∧ l ≠ .undefined := by
  simp [filledLeaves]

theorem filledLeaves_withLeaf (s : Shape) :
    (s.withLeaf .undefined).filledLeaves = s.filledLeaves := by
  unfold withLeaf filledLeaves
  split
  · rfl
  · simp

/-! ### One join -/

theorem joinLeaves_eq_left {ls ms : List Leaf} (h : ∀ m ∈ ms, m ∈ ls) :
    joinLeaves ls ms = ls := by
  rw [joinLeaves, List.filter_eq_nil_iff.2 fun m hm => by simpa using h m hm, List.append_nil]

theorem filter_joinLeaves (p : Leaf → Bool) (ls ms : List Leaf) :
    (joinLeaves ls ms).filter p = joinLeaves (ls.filter p) (ms.filter p) := by
  rw [joinLeaves, joinLeaves, List.filter_append, List.filter_filter, List.filter_filter]
  refine congrArg _ (List.filter_congr fun m _ => ?_)
  by_cases hp : p m <;> simp [hp]

/-- The leaf kinds of a join are those of the left, then the further ones of the right. -/
theorem filledLeaves_join (a b : Shape) :
    (a.join b).filledLeaves = joinLeaves a.filledLeaves b.filledLeaves := by
  by_cases h : a.equiv b
  · rw [join_of_equiv h, joinLeaves_eq_left]
    intro l hl
    rw [mem_filledLeaves] at hl ⊢
    exact ⟨(mem_leaves_of_equiv h l).2 hl.1, hl.2⟩
  · rw [join_of_not_equiv h]
    exact filter_joinLeaves _ _ _

theorem joinContent_none {α : Type} (f : α → α → α) (x? : Option α) :
    joinContent f x? none = x? := by
  cases x? <;> rfl

/-- **What is told of a field of a join** is put together from what is told of the fields of
both sides, if this is so for joins and does not change with the mark. -/
theorem bind_get?_join {α : Type} {op : α → α → α} {told : Shape → Option α}
    (hmark : ∀ s, told (s.withLeaf .undefined) = told s)
    (hjoin : ∀ s t : Shape, told (s.join t) = joinContent op (told s) (told t)) (name : Text)
    (a b : Shape) :
    ((a.join b).get? name).bind told =
      joinContent op ((a.get? name).bind told) ((b.get? name).bind told) := by
  unfold get?
  by_cases h : a.equiv b
  · rw [join_of_equiv h]
    cases hfs : a.fields with
    | none =>
      rw [fields_eq_none_of_equiv h hfs]
      rfl
    | some fs =>
      obtain ⟨gs, hgs, -, -⟩ := exists_fields_of_equiv h hfs
      rw [hgs, Option.bind_some, Option.bind_some]
      rcases field?_of_equiv h hfs hgs name with ⟨hf, hg⟩ | ⟨s, t, hf, hg, hst⟩
      · rw [hf, hg]
        rfl
      · -- the field of the left stands for the join of the two
        have hsame := hjoin s t
        rw [join_of_equiv hst] at hsame
        rw [hf, hg]
        exact hsame
  · rw [join_of_not_equiv h]
    cases a.fields with
    | none => rfl
    | some fs =>
      cases b.fields with
      | none => exact (joinContent_none op _).symm
      | some gs =>
        rw [joinContent_some, Option.bind_some, Option.bind_some, Option.bind_some,
          field?_joinFields]
        cases field? name fs with
        | none =>
          cases field? name gs with
          | none => rfl
          | some t => exact hmark t
        | some s =>
          cases field? name gs with
          | none => exact (hmark s).trans (joinContent_none op _).symm
          | some t => exact hjoin s t

/-! ### Leaf kinds at a place -/

/-- The leaf kinds where a path leads to, the mark left out. -/
def leavesAt (path : List Text) (s : Shape) : Option (List Leaf) :=
  (s.follow path).map filledLeaves

theorem leavesAt_cons (name : Text) (path : List Text) (s : Shape) :
    s.leavesAt (name :: path) = (s.get? name).bind (leavesAt path) := by
  rw [leavesAt, follow, Option.map_bind]
  rfl

theorem leavesAt_withLeaf (path : List Text) (s : Shape) :
    (s.withLeaf .undefined).leavesAt path = s.leavesAt path := by
  cases path with
  | nil => exact congrArg some (filledLeaves_withLeaf s)
  | cons name path => rw [leavesAt_cons, leavesAt_cons, get?, get?, withLeaf_fields]

/-- **The leaf kinds of a join at any place:** those of the left, then the further ones of the
right; where only one side has the place, those of that side. -/
theorem leavesAt_join (path : List Text) (a b : Shape) :
    (a.join b).leavesAt path = joinContent joinLeaves (a.leavesAt path) (b.leavesAt path) := by
  induction path generalizing a b with
  | nil => exact congrArg some (filledLeaves_join a b)
  | cons name path ih =>
    rw [leavesAt_cons, leavesAt_cons, leavesAt_cons]
    exact bind_get?_join (leavesAt_withLeaf path) ih name a b

theorem Everywhere.follow {p : Shape → Prop} {path : List Text} {s t : Shape}
    (h : Everywhere p s) (ht : s.follow path = some t) : Everywhere p t := by
  induction path generalizing s with
  | nil => exact Option.some.inj ht ▸ h
  | cons name path ih =>
    obtain ⟨u, hu, ht⟩ := Option.bind_eq_some_iff.1 ht
    obtain ⟨fs, hfs, hfield⟩ := Option.bind_eq_some_iff.1 hu
    exact ih (h.field hfs (mem_of_field? hfield)) ht

theorem nodup_filledLeaves {s : Shape} (hs : s.Formed) : s.filledLeaves.Nodup :=
  hs.here.leaves.filter _

/-! ### The joins of a list -/

theorem eraseDups_eq_self {ls : List Leaf} (h : ls.Nodup) : ls.eraseDups = ls := by
  induction ls with
  | nil => rfl
  | cons l rest ih =>
    rw [List.nodup_cons] at h
    have hrest : rest.filter (fun m => !m == l) = rest :=
      List.filter_eq_self.2 fun m hm => by simpa using fun heq : m = l => h.1 (heq ▸ hm)
    rw [List.eraseDups_cons, hrest, ih h.2]

/-- Joining to first occurrences adds the first occurrences of what comes next. -/
theorem joinLeaves_eraseDups (ls : List Leaf) {ms : List Leaf} (h : ms.Nodup) :
    joinLeaves ls.eraseDups ms = (ls ++ ms).eraseDups := by
  rw [List.eraseDups_append, List.removeAll, eraseDups_eq_self (h.filter _), joinLeaves]
  simp

/-- The first occurrences among the leaf kinds of shapes, if there are shapes. -/
def gathered : List Shape → Option (List Leaf)
  | [] => none
  | s :: rest => some ((s :: rest).flatMap filledLeaves).eraseDups

theorem gathered_singleton {s : Shape} (hs : s.Formed) : gathered [s] = some s.filledLeaves := by
  rw [gathered, List.flatMap_singleton, eraseDups_eq_self (nodup_filledLeaves hs)]

theorem joinContent_gathered (found : List Shape) {s : Shape} (hs : s.Formed) :
    joinContent joinLeaves (gathered found) (some s.filledLeaves) = gathered (found ++ [s]) := by
  cases found with
  | nil => exact (gathered_singleton hs).symm
  | cons t found =>
    rw [gathered, joinContent_some, joinLeaves_eraseDups _ (nodup_filledLeaves hs),
      List.cons_append, gathered, ← List.cons_append, List.flatMap_append,
      List.flatMap_singleton]

/-- **One more join gathers from one more shape.** -/
theorem leavesAt_join_eq_gathered {path : List Text} {joined : List Shape} {s t : Shape}
    (ht : t.Formed) (h : s.leavesAt path = gathered (joined.filterMap (follow path))) :
    (s.join t).leavesAt path = gathered ((joined ++ [t]).filterMap (follow path)) := by
  rw [leavesAt_join, h, List.filterMap_append, leavesAt]
  cases hu : t.follow path with
  | none =>
    rw [List.filterMap_cons_none hu, List.filterMap_nil, List.append_nil]
    exact joinContent_none _ _
  | some u =>
    rw [List.filterMap_cons_some hu, List.filterMap_nil]
    exact joinContent_gathered _ (ht.follow hu)

theorem leavesAt_foldl_eq_gathered {path : List Text} (joined : List Shape) {rest : List Shape}
    {s : Shape} (hrest : ∀ t ∈ rest, t.Formed)
    (h : s.leavesAt path = gathered (joined.filterMap (follow path))) :
    (rest.foldl join s).leavesAt path = gathered ((joined ++ rest).filterMap (follow path)) := by
  induction rest generalizing joined s with
  | nil => rwa [List.append_nil]
  | cons t rest ih =>
    rw [List.forall_mem_cons] at hrest
    have hstep := ih _ hrest.2 (leavesAt_join_eq_gathered hrest.1 h)
    rwa [List.append_assoc] at hstep

/-- **The leaf kinds of many joined shapes at any place** are gathered from all of them. -/
theorem leavesAt_joinAll (path : List Text) {s : Shape} {rest : List Shape}
    (h : ∀ t ∈ s :: rest, t.Formed) :
    (joinAll s rest).leavesAt path = gathered ((s :: rest).filterMap (follow path)) := by
  rw [List.forall_mem_cons] at h
  rw [joinAll_eq]
  refine leavesAt_foldl_eq_gathered [s] h.2 ?_
  rw [leavesAt]
  cases hu : s.follow path with
  | none =>
    rw [List.filterMap_cons_none hu]
    rfl
  | some u =>
    rw [List.filterMap_cons_some hu]
    exact (gathered_singleton (h.1.follow hu)).symm

/-- **Leaf kinds stand in the order of their first observation.**  The join of shapes that
`Shape.make` accepts is returned, also when each shape on the way is checked.  A path leads
somewhere in it exactly if it leads somewhere in one of them, and the leaf kinds there, the
mark of an unfilled place left out, are the first occurrences in the row of all that the
shapes list there. -/
theorem joinAll_first_observed {s : Shape} {rest : List Shape} (h : ∀ t ∈ s :: rest, t.Made) :
    ∃ m, Sketch.joinAll ((s :: rest).map .whole) = .ok (.whole m) ∧
      Making.joinAll s rest = .ok m ∧ ∀ path : List Text,
        ((m.follow path).isSome = true ↔ ∃ t ∈ s :: rest, (t.follow path).isSome = true) ∧
        ∀ u, m.follow path = some u → u.filledLeaves =
          (((s :: rest).filterMap (follow path)).flatMap filledLeaves).eraseDups := by
  have hformed : ∀ t ∈ s :: rest, t.Formed := fun t ht => (h t ht).formed_of_made
  obtain ⟨hs, hrest⟩ := List.forall_mem_cons.1 hformed
  refine ⟨_, Sketch.joinAll_whole hs hrest, Making.joinAll_eq_ok hs hrest, fun path => ?_⟩
  have hjoined := leavesAt_joinAll path hformed
  rw [leavesAt] at hjoined
  cases hfound : (s :: rest).filterMap (follow path) with
  | nil =>
    rw [hfound, gathered, Option.map_eq_none_iff] at hjoined
    rw [List.filterMap_eq_nil_iff] at hfound
    rw [hjoined]
    refine ⟨iff_of_false Bool.false_ne_true ?_, nofun⟩
    rintro ⟨t, ht, hsome⟩
    rw [hfound t ht] at hsome
    cases hsome
  | cons w found =>
    rw [hfound, gathered] at hjoined
    obtain ⟨u, hu, hleaves⟩ := Option.map_eq_some_iff.1 hjoined
    have hw : w ∈ (s :: rest).filterMap (follow path) := hfound ▸ List.mem_cons_self
    obtain ⟨t, ht, hfollow⟩ := List.mem_filterMap.1 hw
    rw [hu]
    refine ⟨iff_of_true rfl ⟨t, ht, Option.isSome_of_mem hfollow⟩, ?_⟩
    rintro _ ⟨rfl⟩
    exact hleaves

/-- An object with one field of the given leaf kinds. -/
def fieldOf (name : Text) (leaves : List Leaf) : Shape := object [(name, ⟨leaves, none, none⟩)]

/-- Objects with the same field, its leaf kinds in different orders, among shapes that do not
have the field. -/
def variedFields : List Shape :=
  [fieldOf "a" [.string, .null], fieldOf "b" [.number], leaf .unknown,
    fieldOf "a" [.undefined, .boolean, .null]]

theorem made_fieldOf (name : Text) {leaves : List Leaf} (hn : leaves.Nodup) (hne : leaves ≠ []) :
    (fieldOf name leaves).Made := by
  have hkinds : kinds ⟨leaves, none, none⟩ ≠ [] := by simpa [kinds, Kind.all, isObject, isArray]
  have hleaves : Made ⟨leaves, none, none⟩ := by
    refine .intro (madeHere_iff.2 ⟨hn, ?_, hkinds⟩) ?_ ?_
    all_goals rintro _ ⟨⟩
  exact made_singleField hleaves

theorem made_variedFields :
    ∀ t ∈ fieldOf "a" [.null, .string] :: variedFields, t.Made := by
  rw [variedFields, List.forall_mem_cons, List.forall_mem_cons, List.forall_mem_cons,
    List.forall_mem_cons, List.forall_mem_singleton]
  exact ⟨made_fieldOf "a" (by decide) (by decide), made_fieldOf "a" (by decide) (by decide),
    made_fieldOf "b" (by decide) (by decide), made_leaf .unknown,
    made_fieldOf "a" (by decide) (by decide)⟩

theorem joinAll_first_observed_variedFields :
    (∀ t ∈ fieldOf "a" [.null, .string] :: variedFields, t.Made) ∧
      ∃ m u, Making.joinAll (fieldOf "a" [.null, .string]) variedFields = .ok m ∧
        m.follow ["a"] = some u ∧ u.filledLeaves = [.null, .string, .boolean] ∧
        m.follow ["a", "b"] = none := by
  obtain ⟨m, -, hm, hall⟩ := joinAll_first_observed made_variedFields
  obtain ⟨hthere, hleaves⟩ := hall ["a"]
  obtain ⟨u, hu⟩ := Option.isSome_iff_exists.1
    (hthere.2 ⟨_, List.mem_cons_self, by decide⟩)
  refine ⟨made_variedFields, m, u, hm, hu, (hleaves u hu).trans (by decide), ?_⟩
  have hnowhere := mt (hall ["a", "b"]).1.1 (by decide)
  exact Option.not_isSome_iff_eq_none.1 hnowhere

end Shape
end SampleShape
