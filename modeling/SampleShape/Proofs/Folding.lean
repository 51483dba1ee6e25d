/-
# Folded shapes

A shape is folded when every array in it has at most one item with fields, at most one
other item that is an array, and the placeholder only alone.  Joining items leaves
them folded, so a join of folded shapes is folded (`folded_join`).  A sample's own
shape need not be: the items of a sequence are not joined with each other, and a join
keeps them apart as long as it meets no second array.

  * A folded shape is told by the facts it shows, up to equivalence (`equiv_of_shows`).
  * Every shape can be folded (`Shape.fold`).  This joins its items with each other and
    changes none of the facts (`shows_fold`).

So for folded shapes a law of joins is a law of facts, and the facts of a join are those
of its two sides.  For other shapes the law holds once the results are folded.
-/

import SampleShape.Proofs.Observations
import SampleShape.Proofs.Validity

namespace SampleShape
namespace Shape

/-- A valid shape whose items are folded. -/
structure FoldedHere (s : Shape) : Prop extends ValidHere s where
  single : ∀ xs, s.items = some xs → ∀ c, (xs.filter (isContainer c)).length ≤ 1
  sole : ∀ xs, s.items = some xs → unknown ∈ xs → xs = [unknown]

/-- A shape all of whose parts are valid and have folded items. -/
abbrev Folded : Shape → Prop := Everywhere FoldedHere

theorem Everywhere.valid {s : Shape} (h : s.Folded) : s.Valid :=
  h.mono fun _ h => h.toValidHere

theorem FoldedHere.withLeaf {l : Leaf} {s : Shape} (h : FoldedHere s) :
    FoldedHere (s.withLeaf l) where
  toValidHere := h.toValidHere.withLeaf
  single := by
    rw [withLeaf_items]
    exact h.single
  sole := by
    rw [withLeaf_items]
    exact h.sole

theorem foldedHere_leaf (l : Leaf) : FoldedHere (leaf l) where
  toValidHere := validHere_leaf l
  single := nofun
  sole := nofun

theorem folded_leaf (l : Leaf) : (leaf l).Folded := .intro (foldedHere_leaf l) nofun nofun

theorem folded_object {fs : List (Text × Shape)} (hnames : (names fs).Nodup)
    (h : ∀ f ∈ fs, f.2.Folded) : (object fs).Folded := by
  have hvalid : (object fs).Valid := valid_object hnames fun f hf => (h f hf).valid
  refine .intro ⟨hvalid.here, nofun, nofun⟩ ?_ nofun
  rintro _ ⟨rfl⟩
  exact h

theorem folded_array {xs : List Shape} (hne : xs ≠ []) (hd : xs.Pairwise fun x y => ¬ x.equiv y)
    (hsingle : ∀ c, (xs.filter (isContainer c)).length ≤ 1)
    (hsole : unknown ∈ xs → xs = [unknown]) (h : ∀ x ∈ xs, x.Folded) : (array xs).Folded := by
  have hvalid : (array xs).Valid := valid_array hne hd fun x hx => (h x hx).valid
  refine .intro ⟨hvalid.here, ?_, ?_⟩ nofun ?_
  all_goals rintro _ ⟨rfl⟩
  · exact hsingle
  · exact hsole
  · exact h

theorem folded_singleItem {x : Shape} (h : x.Folded) : (array [x]).Folded :=
  folded_array (List.cons_ne_nil _ _) (List.pairwise_singleton _ _)
    (fun _ => List.length_filter_le _ _) (fun hmem => by rw [List.mem_singleton.1 hmem])
    (List.forall_mem_singleton.2 h)

/-! ### Joins are folded -/

theorem length_joinRow_le (j : Shape → Shape → Shape) (row : List Shape) :
    (joinRow j row).length ≤ 1 := by
  cases row with
  | nil => exact Nat.zero_le 1
  | cons x rest => exact Nat.le_refl 1

theorem length_filter_joinItems_le (c : Container) (xs ys : List Shape) :
    ((joinItems join xs ys).filter (isContainer c)).length ≤ 1 := by
  rw [filter_joinItems]
  exact length_joinRow_le _ _

/-- The placeholder is an item of a join only where there is nothing else. -/
theorem joinItems_eq_of_unknown_mem {xs ys : List Shape} (h : unknown ∈ joinItems join xs ys) :
    joinItems join xs ys = [unknown] := by
  have hrow : ∀ c, unknown ∉ joinRow join ((pool xs ys).filter (isContainer c)) := by
    intro c hmem
    have hc := isContainer_of_mem_joinRow (fun x hx => (List.mem_filter.1 hx).2) hmem
    rw [isContainer_unknown] at hc
    cases hc
  rcases mem_joinItems.1 h with ⟨hpool, -⟩ | h | h | h
  · simp [joinItems_eq, hpool]
  · have hpool := (List.mem_filter.1 (List.mem_filter.1 h).1).2
    cases hpool
  · exact absurd h (hrow .object)
  · exact absurd h (hrow .array)

/-- **The join of folded shapes is folded.** -/
theorem folded_join {a b : Shape} (ha : a.Folded) (hb : b.Folded) : (a.join b).Folded := by
  refine Everywhere.join (fun _ hs => hs.withLeaf) (foldedHere_leaf .unknown) ?_ ha hb
  intro a b ha hb h
  refine ⟨validHere_join ha.here.toValidHere hb.here.toValidHere h, ?_, ?_⟩
  all_goals
    intro zs heq
    rw [join_of_not_equiv h] at heq
    rcases joinContent_eq_some.1 heq with ⟨xs, ys, -, -, rfl⟩ | ⟨hxs, -⟩ | ⟨-, hys⟩
  · exact fun c => length_filter_joinItems_le c xs ys
  · exact ha.here.single zs hxs
  · exact hb.here.single zs hys
  · exact joinItems_eq_of_unknown_mem
  · exact ha.here.sole zs hxs
  · exact hb.here.sole zs hys

/-! ### A folded shape is told by its facts -/

/-- An item is the placeholder, a container, or told by its leaf kinds. -/
theorem FormedHere.item_cases {s : Shape} (h : FormedHere s) :
    s = unknown ∨ (∃ c, isContainer c s) ∨ HasLeaves s.leaves s := by
  by_cases hc : ∃ c, isContainer c s
  · exact Or.inr (Or.inl hc)
  by_cases hl : ∃ l ∈ s.leaves, l ≠ .unknown
  · exact Or.inr (Or.inr ⟨not_exists.1 hc, fun _ => Iff.rfl, hl⟩)
  left
  obtain ⟨hobj, harr⟩ := forall_not_isContainer_iff.1 (not_exists.1 hc)
  have hleaf : ∀ l ∈ s.leaves, l = .unknown := fun l hmem => by
    by_contra hne
    exact hl ⟨l, hmem, hne⟩
  refine (eq_leaf_iff h.leaves).2 fun k => ⟨fun hk => ?_, ?_⟩
  · rw [mem_kinds_iff] at hk
    cases k with
    | leaf l => rw [hleaf l hk]
    | object => simp [hobj] at hk
    | array => simp [harr] at hk
  · -- the shape has some kind, and `unknown` is the only one left
    rintro rfl
    obtain ⟨k, hk⟩ := kinds_ne_nil_iff.1 h.kinds
    have hk' := mem_kinds_iff.1 hk
    cases k with
    | leaf l => rwa [hleaf l hk'] at hk
    | object => simp [hobj] at hk'
    | array => simp [harr] at hk'

theorem equiv_of_hasLeaves {a b : Shape} {ls : List Leaf} (ha : HasLeaves ls a)
    (hb : HasLeaves ls b) : a.equiv b := by
  have hnone : ∀ {s : Shape}, HasLeaves ls s → s.fields = none ∧ s.items = none := by
    intro s hs
    obtain ⟨hobj, harr⟩ := forall_not_isContainer_iff.1 hs.1
    simp_all [isObject, isArray]
  refine equiv_iff.2 ⟨fun l => (ha.2.1 l).trans (hb.2.1 l).symm, ?_, ?_⟩
  · rw [(hnone ha).1, (hnone hb).1]
    trivial
  · rw [(hnone ha).2, (hnone hb).2]
    trivial

/-- An item that holds information has a counterpart where its facts are shown. -/
theorem exists_counterpart {a b x : Shape} (h : ∀ f, a.Shows f → b.Shows f)
    (hx : x ∈ a.itemList) (hformed : FormedHere x) :
    x = unknown ∨ (∃ c, isContainer c x ∧ ∃ y ∈ b.itemList, isContainer c y) ∨
      ∃ ls, HasLeaves ls x ∧ ∃ y ∈ b.itemList, HasLeaves ls y := by
  rcases hformed.item_cases with hx' | ⟨c, hc⟩ | hls
  · exact Or.inl hx'
  · obtain ⟨k, hk⟩ := kinds_ne_nil_iff.1 hformed.kinds
    obtain ⟨y, hy, hyc, -⟩ := h (.item c (.kind k)) ⟨x, hx, hc, hk⟩
    exact Or.inr (Or.inl ⟨c, hc, y, hy, hyc⟩)
  · exact Or.inr (Or.inr ⟨x.leaves, hls, h (.leafItem x.leaves) ⟨x, hx, hls⟩⟩)

/-- Where one side has only the placeholder, so has the other. -/
theorem unknown_mem_of_shows {a b : Shape} (h : ∀ f, a.Shows f → b.Shows f)
    (hformed : ∀ x ∈ a.itemList, FormedHere x) (hne : a.itemList ≠ [])
    (hb : b.itemList = [unknown]) : unknown ∈ a.itemList := by
  obtain ⟨x, hx⟩ := List.exists_mem_of_ne_nil _ hne
  rcases exists_counterpart h hx (hformed x hx) with rfl | ⟨c, -, y, hy, hc⟩ | ⟨ls, -, y, hy, hls⟩
  · exact hx
  · rw [hb, List.mem_singleton] at hy
    rw [hy, isContainer_unknown] at hc
    cases hc
  · rw [hb, List.mem_singleton] at hy
    exact absurd (hy ▸ hls) (not_hasLeaves_unknown ls)

/-- The only item of its container shows all facts about items of that container. -/
theorem shows_item_iff {s x : Shape} {xs : List Shape} {c : Container} (hxs : s.items = some xs)
    (hsingle : (xs.filter (isContainer c)).length ≤ 1) (hx : x ∈ xs) (hc : isContainer c x)
    (f : Fact) : s.Shows (.item c f) ↔ x.Shows f := by
  have hlist := itemList_eq hxs
  obtain ⟨y, hy⟩ : ∃ y, xs.filter (isContainer c) = [y] := by
    refine List.length_eq_one_iff.1 (Nat.le_antisymm hsingle ?_)
    exact List.length_pos_of_mem (List.mem_filter.2 ⟨hx, hc⟩)
  have honly : ∀ z ∈ xs, isContainer c z → z = y := fun z hz hzc =>
    List.mem_singleton.1 (hy ▸ List.mem_filter.2 ⟨hz, hzc⟩)
  constructor
  · rintro ⟨z, hz, hzc, hf⟩
    rw [hlist] at hz
    rwa [honly x hx hc, ← honly z hz hzc]
  · exact fun hf => ⟨x, hlist ▸ hx, hc, hf⟩

/-- Fields agree where the same is shown, if those of one name do that show the same. -/
theorem fieldsAgree_of_shows {a b : Shape} (h : ∀ f, a.Shows f ↔ b.Shows f)
    (hn : ∀ fs, a.fields = some fs → (names fs).Nodup)
    (hequiv : ∀ fs gs, a.fields = some fs → b.fields = some gs → ∀ k s t,
      field? k fs = some s → field? k gs = some t → (∀ f, s.Shows f ↔ t.Shows f) → s.equiv t) :
    FieldsAgree a.fields b.fields := by
  have hobj : a.isObject = true ↔ b.isObject = true := by
    simpa [Shows, mem_kinds_iff] using h (.kind .object)
  cases hfs : a.fields with
  | none => cases hgs : b.fields <;> simp_all [isObject, FieldsAgree]
  | some fs =>
    cases hgs : b.fields with
    | none => simp_all [isObject]
    | some gs =>
      have hnames : ∀ k, k ∈ names fs ↔ k ∈ names gs := fun k => by
        simpa [Shows, hfs, hgs] using h (.name k)
      refine ⟨hnames, fun f hmem => ?_⟩
      have hs : field? f.1 fs = some f.2 := field?_of_mem (hn fs hfs) hmem
      cases ht : field? f.1 gs with
      | none =>
        have hname := (hnames f.1).1 (mem_names_of_field? hs)
        exact absurd hname (field?_eq_none_iff.1 ht)
      | some t =>
        refine ⟨t, rfl, hequiv fs gs hfs hgs f.1 f.2 t hs ht fun g => ?_⟩
        simpa [Shows, hfs, hgs, hs, ht] using h (.field f.1 g)

/-- Where folded shapes show the same, each item of one has a counterpart: both are the
placeholder, are of one container, or have the same leaf kinds. -/
theorem exists_counterpart_of_folded {a b x : Shape} {xs ys : List Shape} (ha : a.Folded)
    (hb : b.Folded) (h : ∀ f, a.Shows f ↔ b.Shows f) (hxs : a.items = some xs)
    (hys : b.items = some ys) (hx : x ∈ xs) :
    ∃ y ∈ ys, (x = unknown ∧ y = unknown) ∨ (∃ c, isContainer c x ∧ isContainer c y) ∨
      ∃ ls, HasLeaves ls x ∧ HasLeaves ls y := by
  have hlist := itemList_eq hxs
  have hlist' := itemList_eq hys
  have hformed : FormedHere x := (ha.item hxs hx).here.toFormedHere
  rcases exists_counterpart (fun f => (h f).1) (hlist ▸ hx) hformed with
    rfl | ⟨c, hc, y, hy, hc'⟩ | ⟨ls, hls, y, hy, hls'⟩
  · have hformed' : ∀ y ∈ b.itemList, FormedHere y := fun y hy =>
      (hb.item hys (hlist' ▸ hy)).here.toFormedHere
    have hunknown := unknown_mem_of_shows (fun f => (h f).2) hformed'
      (hlist' ▸ hb.here.inhabited ys hys) (hlist ▸ ha.here.sole xs hxs hx)
    exact ⟨unknown, hlist' ▸ hunknown, Or.inl ⟨rfl, rfl⟩⟩
  · exact ⟨y, hlist' ▸ hy, Or.inr (Or.inl ⟨c, hc, hc'⟩)⟩
  · exact ⟨y, hlist' ▸ hy, Or.inr (Or.inr ⟨ls, hls, hls'⟩)⟩

/-- Items of folded shapes agree where the same is shown, if those do that show the
same. -/
theorem itemsAgree_of_shows {a b : Shape} (ha : a.Folded) (hb : b.Folded)
    (h : ∀ f, a.Shows f ↔ b.Shows f)
    (hequiv : ∀ xs ys, a.items = some xs → b.items = some ys → ∀ x ∈ xs, ∀ y ∈ ys,
      (∀ f, x.Shows f ↔ y.Shows f) → x.equiv y) : ItemsAgree a.items b.items := by
  have harr : a.isArray = true ↔ b.isArray = true := by
    simpa [Shows, mem_kinds_iff] using h (.kind .array)
  cases hxs : a.items with
  | none => cases hys : b.items <;> simp_all [isArray, ItemsAgree]
  | some xs =>
    cases hys : b.items with
    | none => simp_all [isArray]
    | some ys =>
      -- two items of one container are the only ones of it, so they show the same
      have hsame : ∀ {c x y}, x ∈ xs → y ∈ ys → isContainer c x → isContainer c y →
          x.equiv y := by
        intro c x y hx hy hc hc'
        refine hequiv xs ys hxs hys x hx y hy fun f => ?_
        rw [← shows_item_iff hxs (ha.here.single xs hxs c) hx hc,
          ← shows_item_iff hys (hb.here.single ys hys c) hy hc']
        exact h (.item c f)
      constructor
      · intro x hx
        obtain ⟨y, hy, ⟨rfl, rfl⟩ | ⟨c, hc, hc'⟩ | ⟨ls, hls, hls'⟩⟩ :=
          exists_counterpart_of_folded ha hb h hxs hys hx
        · exact ⟨unknown, hy, rfl⟩
        · exact ⟨y, hy, hsame hx hy hc hc'⟩
        · exact ⟨y, hy, equiv_of_hasLeaves hls hls'⟩
      · intro y hy
        obtain ⟨x, hx, ⟨rfl, rfl⟩ | ⟨c, hc', hc⟩ | ⟨ls, hls', hls⟩⟩ :=
          exists_counterpart_of_folded hb ha (fun f => (h f).symm) hys hxs hy
        · exact ⟨unknown, hx, rfl⟩
        · exact ⟨x, hx, hsame hx hy hc hc'⟩
        · exact ⟨x, hx, equiv_of_hasLeaves hls hls'⟩

/-- **Folded shapes that show the same facts are equivalent.** -/
theorem equiv_of_shows {a b : Shape} (ha : a.Folded) (hb : b.Folded)
    (h : ∀ f, a.Shows f ↔ b.Shows f) : a.equiv b := by
  induction ha generalizing b with
  | intro here hf hx ihf ihx =>
    rename_i a
    refine equiv_iff.2 ⟨fun l => ?_, ?_, ?_⟩
    · simpa [Shows, mem_kinds_iff] using h (.kind (.leaf l))
    · refine fieldsAgree_of_shows h here.names fun fs gs hfs hgs k s t hs ht => ?_
      exact ihf fs hfs (k, s) (mem_of_field? hs) (hb.field hgs (mem_of_field? ht))
    · refine itemsAgree_of_shows (.intro here hf hx) hb h fun xs ys hxs hys x hmem y hmem' => ?_
      exact ihx xs hxs x hmem (hb.item hys hmem')

/-! ### Folding -/

mutual

/-- The shape with the items of every array joined with each other. -/
def fold : Shape → Shape
  | ⟨leaves, fields, items⟩ =>
    ⟨leaves,
      match fields with
        | none => none
        | some fields => some (foldFields fields),
      match items with
        | none => none
        | some items => some (joinItems join (foldItems items) [])⟩
termination_by structural s => s

/-- The fields with folded shapes. -/
def foldFields : List (Text × Shape) → List (Text × Shape)
  | [] => []
  | (name, s) :: rest => (name, s.fold) :: foldFields rest
termination_by structural fields => fields

/-- The folded shapes of items. -/
def foldItems : List Shape → List Shape
  | [] => []
  | s :: rest => s.fold :: foldItems rest
termination_by structural items => items

end

/-- **Folding part by part.** -/
theorem fold_eq (s : Shape) :
    s.fold = ⟨s.leaves, s.fields.map fun fs => fs.map fun f => (f.1, f.2.fold),
      s.items.map fun xs => joinItems join (xs.map fold) []⟩ := by
  have hfields : ∀ fs, foldFields fs = fs.map fun f => (f.1, f.2.fold) := fun fs => by
    induction fs with
    | nil => rfl
    | cons f rest ih => rw [foldFields, List.map_cons, ih]
  have hitems : ∀ xs, foldItems xs = xs.map fold := fun xs => by
    induction xs with
    | nil => rfl
    | cons x rest ih => rw [foldItems, List.map_cons, ih]
  obtain ⟨leaves, fields, items⟩ := s
  rw [fold.eq_def]
  cases fields <;> cases items <;> simp only [Option.map_none, Option.map_some, hfields, hitems]

theorem kinds_fold (s : Shape) : s.fold.kinds = s.kinds := by
  rw [fold_eq]
  simp only [kinds, isObject, isArray, Option.isSome_map]

theorem isContainer_fold (c : Container) (s : Shape) : isContainer c s.fold = isContainer c s := by
  rw [fold_eq]
  cases c <;> simp only [isContainer, isObject, isArray, Option.isSome_map]

theorem hasLeaves_fold (ls : List Leaf) (s : Shape) : HasLeaves ls s.fold ↔ HasLeaves ls s := by
  have hleaves : s.fold.leaves = s.leaves := by rw [fold_eq]
  unfold HasLeaves
  simp only [isContainer_fold, hleaves]

/-- Facts about folded items are those about the items, if folding keeps them. -/
theorem exists_mem_itemList_fold {P : Shape → Prop} {s : Shape}
    (hjoin : ∀ {xs ys : List Shape}, (∃ t ∈ joinItems join xs ys, P t) ↔ ∃ t ∈ xs ++ ys, P t)
    (hfold : ∀ x ∈ s.itemList, (P x.fold ↔ P x)) :
    (∃ t ∈ s.fold.itemList, P t) ↔ ∃ t ∈ s.itemList, P t := by
  unfold itemList at hfold ⊢
  rw [fold_eq]
  cases hxs : s.items with
  | none => simp
  | some xs =>
    rw [hxs] at hfold
    refine hjoin.trans ?_
    rw [List.append_nil]
    constructor
    · rintro ⟨t, ht, hP⟩
      obtain ⟨x, hx, rfl⟩ := List.mem_map.1 ht
      exact ⟨x, hx, (hfold x hx).1 hP⟩
    · rintro ⟨x, hx, hP⟩
      exact ⟨x.fold, List.mem_map_of_mem hx, (hfold x hx).2 hP⟩

/-- **Folding changes no facts.** -/
theorem shows_fold (s : Shape) (f : Fact) : s.fold.Shows f ↔ s.Shows f := by
  induction s using Shape.induct generalizing f with
  | step s ihf ihx =>
    have hitem : ∀ x ∈ s.itemList, ∀ f, x.fold.Shows f ↔ x.Shows f := by
      intro x hx
      unfold itemList at hx
      cases hxs : s.items with
      | none => simp [hxs] at hx
      | some xs =>
        rw [hxs] at hx
        exact ihx xs hxs x hx
    cases f with
    | kind k => simp only [Shows, kinds_fold]
    | name k =>
      rw [fold_eq]
      cases hfs : s.fields <;> simp [Shows, hfs, names_map]
    | field k f =>
      rw [fold_eq]
      cases hfs : s.fields with
      | none => simp [Shows, hfs]
      | some fs =>
        cases ht : field? k fs with
        | none => simp [Shows, hfs, field?_map, ht]
        | some t => simp [Shows, hfs, field?_map, ht, ihf fs hfs (k, t) (mem_of_field? ht) f]
    | leafItem ls =>
      exact exists_mem_itemList_fold (exists_leaf_joinItems (fun h => hasLeaves_congr h ls)
        (not_hasLeaves_unknown ls) fun _ hs => hs.1) fun x _ => hasLeaves_fold ls x
    | item c f =>
      refine exists_mem_itemList_fold
        (exists_container_joinItems (fun h => shows_congr h f) (fun x y => shows_join x y f) c) ?_
      intro x hx
      rw [isContainer_fold, hitem x hx]

/-- **Folding a valid shape gives a folded one.** -/
theorem folded_fold {s : Shape} (h : s.Valid) : s.fold.Folded := by
  induction h with
  | intro here hf hx ihf ihx =>
    rename_i s
    have hfields : ∀ gs, s.fold.fields = some gs → ∃ fs, s.fields = some fs ∧
        gs = fs.map fun f => (f.1, f.2.fold) := fun gs hgs => by
      rw [fold_eq] at hgs
      obtain ⟨fs, hfs, rfl⟩ := Option.map_eq_some_iff.1 hgs
      exact ⟨fs, hfs, rfl⟩
    have hitems : ∀ ys, s.fold.items = some ys → ∃ xs, s.items = some xs ∧
        ys = joinItems join (xs.map fold) [] := fun ys hys => by
      rw [fold_eq] at hys
      obtain ⟨xs, hxs, rfl⟩ := Option.map_eq_some_iff.1 hys
      exact ⟨xs, hxs, rfl⟩
    refine .intro ⟨⟨⟨?_, ?_, ?_⟩, ?_, ?_⟩, ?_, ?_⟩ ?_ ?_
    · rw [fold_eq]
      exact here.leaves
    · intro gs hgs
      obtain ⟨fs, hfs, rfl⟩ := hfields gs hgs
      rw [names_map]
      exact here.names fs hfs
    · rw [kinds_fold]
      exact here.kinds
    · intro ys hys
      obtain ⟨xs, -, rfl⟩ := hitems ys hys
      exact joinItems_ne_nil _ _
    · intro ys hys
      obtain ⟨xs, -, rfl⟩ := hitems ys hys
      exact pairwise_joinItems _ _
    · intro ys hys c
      obtain ⟨xs, -, rfl⟩ := hitems ys hys
      exact length_filter_joinItems_le c _ _
    · intro ys hys
      obtain ⟨xs, -, rfl⟩ := hitems ys hys
      exact joinItems_eq_of_unknown_mem
    · intro gs hgs g hg
      obtain ⟨fs, hfs, rfl⟩ := hfields gs hgs
      obtain ⟨f, hmem, rfl⟩ := List.mem_map.1 hg
      exact ihf fs hfs f hmem
    · intro ys hys
      obtain ⟨xs, hxs, rfl⟩ := hitems ys hys
      refine forall_mem_joinItems (fun _ _ => folded_join)
        (Everywhere.unknown (foldedHere_leaf .unknown)) (fun t ht => ?_) nofun
      obtain ⟨x, hmem, rfl⟩ := List.mem_map.1 ht
      exact ihx xs hxs x hmem

/-- Valid shapes that show the same facts are equivalent once they are folded. -/
theorem equiv_fold_of_shows {a b : Shape} (ha : a.Valid) (hb : b.Valid)
    (h : ∀ f, a.Shows f ↔ b.Shows f) : a.fold.equiv b.fold := by
  refine equiv_of_shows (folded_fold ha) (folded_fold hb) fun f => ?_
  rw [shows_fold, shows_fold]
  exact h f

end Shape
end SampleShape
