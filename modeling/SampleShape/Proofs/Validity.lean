/-
# Every operation keeps shapes valid

A shape is valid when, in all its parts, no leaf kind and no field name occurs twice,
there is at least one kind, and an array has item shapes, no two of them equivalent
(`Shape.Valid`).  Each operation puts its result together in its own way, so each
has a lemma of its own: a further leaf kind (`valid_withLeaf`), the join of two shapes
(`valid_join`) and of many (`valid_joinAll`), the normal form (`valid_normalize`), and
the shape of a sample (`valid_form`).  What `Shape.make` checks of a join does not need
the items to be distinct (`formed_join`).

What is asked of all items of arrays goes through the operations in one way, whatever it is
(`ItemsHere`): into a join if joined items have it, into the normal form if it is kept there,
and into the shape of a sample if the shapes of samples have it.
-/

import SampleShape.Proofs.NormalForm
import SampleShape.Proofs.Samples

namespace SampleShape
namespace Shape

/-! ### A further leaf kind -/

theorem kinds_ne_nil_iff {s : Shape} : s.kinds ≠ [] ↔ ∃ k, k ∈ s.kinds :=
  ⟨List.exists_mem_of_ne_nil _, fun ⟨_, hk⟩ => List.ne_nil_of_mem hk⟩

theorem mem_kinds_withLeaf {l : Leaf} {s : Shape} {k : Kind} (h : k ∈ s.kinds) :
    k ∈ (s.withLeaf l).kinds := by
  rw [mem_kinds_iff] at h ⊢
  cases k with
  | leaf m => exact mem_withLeaf.2 (Or.inl h)
  | object => rwa [isObject, withLeaf_fields]
  | array => rwa [isArray, withLeaf_items]

theorem FormedHere.withLeaf {l : Leaf} {s : Shape} (h : FormedHere s) :
    FormedHere (s.withLeaf l) where
  leaves := by
    unfold Shape.withLeaf
    split
    · exact h.leaves
    · rename_i hl
      refine List.nodup_append.2 ⟨h.leaves, by simp, ?_⟩
      rintro m hm _ hl' rfl
      exact hl (List.mem_singleton.1 hl' ▸ hm)
  names := by
    rw [withLeaf_fields]
    exact h.names
  kinds := by
    obtain ⟨k, hk⟩ := kinds_ne_nil_iff.1 h.kinds
    exact kinds_ne_nil_iff.2 ⟨k, mem_kinds_withLeaf hk⟩

theorem ValidHere.withLeaf {l : Leaf} {s : Shape} (h : ValidHere s) : ValidHere (s.withLeaf l) where
  toFormedHere := h.toFormedHere.withLeaf
  inhabited := by
    rw [withLeaf_items]
    exact h.inhabited
  distinct := by
    rw [withLeaf_items]
    exact h.distinct

theorem validHere_leaf (l : Leaf) : ValidHere (leaf l) where
  leaves := by simp [leaf]
  names := nofun
  kinds := kinds_ne_nil_iff.2 ⟨.leaf l, by simp [mem_kinds_iff, leaf]⟩
  inhabited := nofun
  distinct := nofun

theorem valid_leaf (l : Leaf) : (leaf l).Valid := .intro (validHere_leaf l) nofun nofun

theorem valid_withLeaf {l : Leaf} {s : Shape} (h : s.Valid) : (s.withLeaf l).Valid :=
  Everywhere.withLeaf (fun _ hs => hs.withLeaf) h

/-! ### Joins -/

theorem nodup_joinLeaves {ls ms : List Leaf} (hl : ls.Nodup) (hm : ms.Nodup) :
    (joinLeaves ls ms).Nodup := by
  refine List.nodup_append.2 ⟨hl, hm.filter _, ?_⟩
  rintro l hl _ hm rfl
  simp_all

/-- **The names of a join in order:** those of both sides, those of the left only,
those of the right only. -/
theorem names_joinFields (j : Shape → Shape → Shape) (fs gs : List (Text × Shape)) :
    names (joinFields j fs gs) = (names fs).filter (hasField · gs) ++
      ((names fs).filter (!hasField · gs) ++ (names gs).filter (!hasField · fs)) := by
  have hshared : names (fs.filterMap fun f => (field? f.1 gs).map fun t => (f.1, j f.2 t)) =
      (names fs).filter (hasField · gs) := by
    induction fs with
    | nil => rfl
    | cons f rest ih =>
      simp only [names, List.map_cons] at ih ⊢
      rw [List.filterMap_cons, List.filter_cons]
      cases hk : field? f.1 gs with
      | none =>
        have hn : hasField f.1 gs = false := by
          rw [← Bool.not_eq_true, hasField_iff]
          exact field?_eq_none_iff.1 hk
        simpa [hn] using ih
      | some t =>
        have hy : hasField f.1 gs = true :=
          hasField_iff.2 (mem_names_of_field? hk)
        simpa [hy] using ih
  have hone : ∀ (fs gs : List (Text × Shape)),
      names (fs.filter fun f => !hasField f.1 gs) = (names fs).filter (!hasField · gs) := by
    intro fs gs
    rw [names, names, List.filter_map]
    rfl
  rw [joinFields_eq, names_append, hshared, names_map, names_append, hone, hone]

theorem nodup_names_joinFields {j : Shape → Shape → Shape} {fs gs : List (Text × Shape)}
    (hf : (names fs).Nodup) (hg : (names gs).Nodup) : (names (joinFields j fs gs)).Nodup := by
  rw [names_joinFields]
  refine List.nodup_append.2 ⟨hf.filter _, List.nodup_append.2 ⟨hf.filter _, hg.filter _, ?_⟩, ?_⟩
  · -- a name of one side only is not a name of the other
    rintro k hk _ hk' rfl
    simp only [List.mem_filter, Bool.not_eq_true', ← Bool.not_eq_true, hasField_iff] at hk hk'
    exact hk'.2 hk.1
  · rintro k hk _ hk' rfl
    simp only [List.mem_append, List.mem_filter, Bool.not_eq_true', ← Bool.not_eq_true,
      hasField_iff] at hk hk'
    rcases hk' with hk' | hk'
    · exact hk'.2 hk.2
    · exact hk'.2 hk.1

theorem joinItems_ne_nil {j : Shape → Shape → Shape} (xs ys : List Shape) :
    joinItems j xs ys ≠ [] := by
  by_cases hpool : pool xs ys = []
  · simp [joinItems_eq, hpool]
  · obtain ⟨s, hs⟩ := List.exists_mem_of_ne_nil _ hpool
    obtain ⟨t, ht, -⟩ := exists_mem_joinItems_of_pool (j := j) (P := fun _ => True)
      (fun _ _ _ => trivial) ⟨s, hs, trivial⟩
    exact List.ne_nil_of_mem ht

theorem pairwise_joinRow (j : Shape → Shape → Shape) (row : List Shape) {R : Shape → Shape → Prop} :
    (joinRow j row).Pairwise R := by
  cases row with
  | nil => exact List.Pairwise.nil
  | cons x rest => exact List.pairwise_singleton _ _

/-- No two items of a join are equivalent: those without containers come from the
pool, and the other two differ from them and from each other in their kinds. -/
theorem pairwise_joinItems (xs ys : List Shape) :
    (joinItems join xs ys).Pairwise fun x y => ¬ x.equiv y := by
  rw [joinItems_eq]
  split
  · exact List.pairwise_singleton _ _
  have hleaf : ∀ s ∈ pooledLeaves xs ys, s.isObject = false ∧ s.isArray = false := fun s hs => by
    simpa using (List.mem_filter.1 hs).2
  have hobject : ∀ s ∈ joinRow join (pooledObjects xs ys), s.isObject = true := fun s hs =>
    isContainer_of_mem_joinRow (c := .object) (fun x hx => (List.mem_filter.1 hx).2) hs
  have harray : ∀ s ∈ joinRow join (pooledArrays xs ys), s.isArray = true ∧ s.isObject = false := by
    intro s hs
    have hs := isContainer_of_mem_joinRow (c := .array) (fun x hx => (List.mem_filter.1 hx).2) hs
    simpa [isContainer] using hs
  refine List.pairwise_append.2 ⟨List.pairwise_append.2 ⟨?_, pairwise_joinRow _ _, ?_⟩,
    pairwise_joinRow _ _, ?_⟩
  · exact ((pairwise_dedupe (xs ++ ys)).filter _).filter _
  · intro s hs t ht h
    have hobj := isObject_of_equiv h
    rw [(hleaf s hs).1, hobject t ht] at hobj
    cases hobj
  · intro s hs t ht h
    rcases List.mem_append.1 hs with hs | hs
    · have harr := isArray_of_equiv h
      rw [(hleaf s hs).2, (harray t ht).1] at harr
      cases harr
    · have hobj := isObject_of_equiv h
      rw [hobject s hs, (harray t ht).2] at hobj
      cases hobj

/-- **One step of a join keeps shapes formed.** -/
theorem formedHere_join {a b : Shape} (ha : FormedHere a) (hb : FormedHere b) (h : ¬ a.equiv b) :
    FormedHere (a.join b) where
  leaves := by
    rw [join_of_not_equiv h]
    exact nodup_joinLeaves ha.leaves hb.leaves
  names := by
    intro hs heq
    rw [join_of_not_equiv h] at heq
    rcases joinContent_eq_some.1 heq with ⟨fs, gs, hfs, hgs, rfl⟩ | ⟨hfs, -⟩ | ⟨-, hgs⟩
    · exact nodup_names_joinFields (ha.names fs hfs) (hb.names gs hgs)
    · exact ha.names hs hfs
    · exact hb.names hs hgs
  kinds := by
    obtain ⟨k, hk⟩ := kinds_ne_nil_iff.1 ha.kinds
    exact kinds_ne_nil_iff.2 ⟨k, mem_kinds_join.2 (Or.inl hk)⟩

/-- **The join of formed shapes is formed.** -/
theorem formed_join {a b : Shape} (ha : a.Formed) (hb : b.Formed) : (a.join b).Formed :=
  Everywhere.join (fun _ hs => hs.withLeaf) formedHere_unknown
    (fun _ _ ha hb => formedHere_join ha.here hb.here) ha hb

/-- One step of a join keeps shapes valid. -/
theorem validHere_join {a b : Shape} (ha : ValidHere a) (hb : ValidHere b) (h : ¬ a.equiv b) :
    ValidHere (a.join b) where
  toFormedHere := formedHere_join ha.toFormedHere hb.toFormedHere h
  inhabited := by
    intro zs heq
    rw [join_of_not_equiv h] at heq
    rcases joinContent_eq_some.1 heq with ⟨xs, ys, -, -, rfl⟩ | ⟨hxs, -⟩ | ⟨-, hys⟩
    · exact joinItems_ne_nil xs ys
    · exact ha.inhabited zs hxs
    · exact hb.inhabited zs hys
  distinct := by
    intro zs heq
    rw [join_of_not_equiv h] at heq
    rcases joinContent_eq_some.1 heq with ⟨xs, ys, -, -, rfl⟩ | ⟨hxs, -⟩ | ⟨-, hys⟩
    · exact pairwise_joinItems xs ys
    · exact ha.distinct zs hxs
    · exact hb.distinct zs hys

/-- **The join of valid shapes is valid.** -/
theorem valid_join {a b : Shape} (ha : a.Valid) (hb : b.Valid) : (a.join b).Valid :=
  Everywhere.join (fun _ hs => hs.withLeaf) (validHere_leaf .unknown)
    (fun _ _ ha hb => validHere_join ha.here hb.here) ha hb

theorem valid_joinAll {s : Shape} {rest : List Shape} (hs : s.Valid) (hrest : ∀ t ∈ rest, t.Valid) :
    (joinAll s rest).Valid :=
  joinAll_of_forall (fun _ _ => valid_join) hs hrest

/-! ### Normal forms and samples -/

theorem valid_normalize {s : Shape} (h : s.Valid) : s.normalize.Valid := by
  refine h.normalize (validHere_leaf _) fun s hs hd => ⟨hs.here.toFormedHere.normalize hd, ?_, ?_⟩
  all_goals
    intro ys hys
    rw [normalize_eq hd] at hys
    obtain ⟨xs, hxs, rfl⟩ := Option.map_eq_some_iff.1 hys
  · exact dedupe_ne_nil fun hnil => hs.here.inhabited xs hxs (List.map_eq_nil_iff.1 hnil)
  · exact pairwise_dedupe _

theorem valid_array {xs : List Shape} (hne : xs ≠ []) (hd : xs.Pairwise fun x y => ¬ x.equiv y)
    (h : ∀ x ∈ xs, x.Valid) : (array xs).Valid := by
  refine .intro ⟨⟨List.Pairwise.nil, nofun, List.cons_ne_nil _ _⟩, ?_, ?_⟩ nofun ?_
  all_goals rintro _ ⟨rfl⟩
  · exact hne
  · exact hd
  · exact h

theorem valid_object {fs : List (Text × Shape)} (hn : (names fs).Nodup)
    (h : ∀ f ∈ fs, f.2.Valid) : (object fs).Valid := by
  refine .intro ⟨⟨List.Pairwise.nil, ?_, List.cons_ne_nil _ _⟩, nofun, nofun⟩ ?_ nofun
  all_goals rintro _ ⟨rfl⟩
  · exact hn
  · exact h

theorem valid_arrayOf {items : List Shape} (h : ∀ s ∈ items, s.Valid) :
    (Value.arrayOf items).Valid := by
  rw [Value.arrayOf]
  split
  · exact valid_array (List.cons_ne_nil _ _) (List.pairwise_singleton _ _)
      (List.forall_mem_singleton.2 (valid_leaf .unknown))
  · rename_i hne
    exact valid_array (dedupe_ne_nil (by simpa using hne)) (pairwise_dedupe items)
      fun s hs => h s (mem_of_mem_dedupe hs)

theorem valid_objectOf {fields : List (Text × Shape)} (hn : (names fields).Nodup)
    (h : ∀ f ∈ fields, f.2.Valid) : (Value.objectOf fields).Valid := by
  rw [Value.objectOf]
  split
  · exact valid_object (List.pairwise_singleton _ _)
      (List.forall_mem_singleton.2 (valid_leaf .unknown))
  · exact valid_object hn h

/-- **The shape of a sample is valid.** -/
theorem valid_form {holes : Prop} {v : Value} (h : v.Supported holes) : v.form.Valid := by
  induction h with
  | undefined | null | boolean | integer | real | text => exact valid_leaf _
  | sequence fixed h ih =>
    rw [Value.form_sequence fixed h]
    refine valid_arrayOf fun s hs => ?_
    obtain ⟨v, hv, rfl⟩ := List.mem_map.1 hs
    exact ih v hv
  | mapping hn h ih =>
    rw [Value.form_mapping h]
    refine valid_objectOf ?_ fun f hf => ?_
    · rwa [Value.names_map_form]
    · obtain ⟨e, he, rfl⟩ := List.mem_map.1 hf
      exact ih e he

/-- What holds of the placeholder, and of the shape of every value that is as `q` asks, holds
everywhere in the shape of such a value, if its items and entries are as `q` asks too. -/
theorem Everywhere.form_of {p : Shape → Prop} {q : Value → Prop} {holes : Prop}
    (hunknown : p Shape.unknown) (hform : ∀ w : Value, w.Supported holes → q w → p w.form)
    (hitem : ∀ {fixed items}, q (.sequence fixed items) → ∀ w ∈ items, q w)
    (hentry : ∀ {entries}, q (.mapping entries) → ∀ e ∈ entries, q e.2)
    {v : Value} (h : v.Supported holes) (hv : q v) : Everywhere p v.form := by
  induction h with
  | undefined | null | boolean | integer | real | text =>
    exact .intro (hform _ (by constructor <;> assumption) hv) nofun nofun
  | sequence fixed h ih =>
    have here := hform _ (.sequence fixed h) hv
    rw [Value.form_sequence fixed h, Value.arrayOf] at here ⊢
    refine .intro here nofun ?_
    rintro _ ⟨rfl⟩ s hs
    split at hs
    · rw [List.mem_singleton.1 hs]
      exact Everywhere.unknown hunknown
    · obtain ⟨v, hmem, rfl⟩ := List.mem_map.1 (mem_of_mem_dedupe hs)
      exact ih v hmem (hitem hv v hmem)
  | mapping hn h ih =>
    have here := hform _ (.mapping hn h) hv
    rw [Value.form_mapping h, Value.objectOf] at here ⊢
    refine .intro here ?_ nofun
    rintro _ ⟨rfl⟩ f hf
    split at hf
    · rw [List.mem_singleton.1 hf]
      exact Everywhere.unknown hunknown
    · obtain ⟨e, he, rfl⟩ := List.mem_map.1 hf
      exact ih e he (hentry hv (.text e.1, e.2) (List.mem_map_of_mem he))

/-- What holds of the placeholder and of the shapes of samples holds everywhere in the
shape of a sample. -/
theorem Everywhere.form {p : Shape → Prop} {holes : Prop} (hunknown : p Shape.unknown)
    (hform : ∀ w : Value, w.Supported holes → p w.form) {v : Value} (h : v.Supported holes) :
    Everywhere p v.form :=
  Everywhere.form_of (q := fun _ => True) hunknown (fun w hw _ => hform w hw)
    (fun _ _ _ => trivial) (fun _ _ _ => trivial) h trivial

/-- What holds of the shape of every sample and is kept by a join holds of the join of
all. -/
theorem joinAll_form_of_forall {P : Shape → Prop} (hjoin : ∀ x y, P x → P y → P (x.join y))
    {v : Value} {rest : List Value} (h : ∀ w ∈ v :: rest, P w.form) :
    P (joinAll v.form (rest.map Value.form)) := by
  rw [List.forall_mem_cons] at h
  refine joinAll_of_forall hjoin h.1 fun t ht => ?_
  obtain ⟨w, hw, rfl⟩ := List.mem_map.1 ht
  exact h.2 w hw

/-- The join of the shapes of samples is valid. -/
theorem valid_joinAll_form {holes : Prop} {v : Value} {rest : List Value}
    (h : ∀ w ∈ v :: rest, w.Supported holes) : (joinAll v.form (rest.map Value.form)).Valid :=
  joinAll_form_of_forall (fun _ _ => valid_join) fun w hw => valid_form (h w hw)

/-! ### What holds of items -/

/-- Whether all items of an array are as `P` asks. -/
def ItemsHere (P : Shape → Prop) (s : Shape) : Prop :=
  ∀ xs, s.items = some xs → ∀ x ∈ xs, P x

theorem itemsHere_join {P : Shape → Prop}
    (hitems : ∀ {xs ys}, (∀ x ∈ xs, P x) → (∀ y ∈ ys, P y) → ∀ z ∈ joinItems join xs ys, P z)
    {a b : Shape} (ha : Everywhere (ItemsHere P) a) (hb : Everywhere (ItemsHere P) b) :
    Everywhere (ItemsHere P) (a.join b) := by
  refine Everywhere.join (fun s hs => ?_) nofun ?_ ha hb
  · rw [ItemsHere, withLeaf_items]
    exact hs
  · intro a b ha hb h zs heq
    rw [join_of_not_equiv h] at heq
    rcases joinContent_eq_some.1 heq with ⟨xs, ys, hxs, hys, rfl⟩ | ⟨hxs, -⟩ | ⟨-, hys⟩
    · exact hitems (ha.here xs hxs) (hb.here ys hys)
    · exact ha.here zs hxs
    · exact hb.here zs hys

theorem itemsHere_normalize {P : Shape → Prop} (hkeep : ∀ x, P x → P x.normalize) {s : Shape}
    (h : Everywhere (ItemsHere P) s) : Everywhere (ItemsHere P) s.normalize := by
  refine h.normalize nofun fun s hs hd ys hys y hy => ?_
  rw [normalize_eq hd] at hys
  obtain ⟨xs, hxs, rfl⟩ := Option.map_eq_some_iff.1 hys
  obtain ⟨x, hx, rfl⟩ := List.mem_map.1 (mem_of_mem_dedupe hy)
  exact hkeep x (hs.here xs hxs x hx)

theorem itemsHere_form {P : Shape → Prop} {holes : Prop} (hunknown : P unknown)
    (hform : ∀ w : Value, w.Supported holes → P w.form) {v : Value} (h : v.Supported holes) :
    Everywhere (ItemsHere P) v.form := by
  refine Everywhere.form nofun (fun w hw => ?_) h
  cases hw with
  | undefined | null | boolean | integer | real | text => exact nofun
  | sequence fixed h =>
    rw [Value.form_sequence fixed h]
    rintro _ ⟨rfl⟩ s hs
    split at hs
    · rw [List.mem_singleton.1 hs]
      exact hunknown
    · obtain ⟨v, hv, rfl⟩ := List.mem_map.1 (mem_of_mem_dedupe hs)
      exact hform v (h v hv)
  | mapping hn h =>
    rw [Value.form_mapping h]
    exact nofun

end Shape
end SampleShape
