/-
# Every shape that is put together passes its checks

`Shape.make` refuses a shape whose leaf kinds or field names are not distinct, or that
has no kind at all, and the join of two objects relies on finding each shared field on
the right.  The operations on shapes check neither.  Here they are with both checks in
place (`Making`): each shape they put together, those on the way included, is made by
`Shape.make`, and a shared field that is not found is a fault.

On valid shapes the checks never fail, and the operations with checks give what those
without give (`join_eq_ok`, `normalize_eq_ok`, `shape_eq_ok`), which is valid again.  For
joins and normal forms it is enough that the shapes are formed: the checks pass what is
formed (`check_eq_ok`), so the join with checks follows the one without (`follows`).
-/

import SampleShape.Proofs.Joineries

namespace SampleShape

/-! ### Values that have a valid shape -/

namespace Value

/-- The values whose mappings, at every depth, have each text once among their keys. -/
inductive WellKeyed : Value → Prop
  | plain {v : Value} (hs : ∀ fixed items, v ≠ .sequence fixed items)
      (hm : ∀ entries, v ≠ .mapping entries) : WellKeyed v
  | sequence (fixed : Bool) {items : List Value} (h : ∀ v ∈ items, WellKeyed v) :
      WellKeyed (.sequence fixed items)
  | mapping {entries : List (Value × Value)}
      (distinct : (entries.filterMap fun e => e.1.text?).Nodup)
      (h : ∀ e ∈ entries, WellKeyed e.2) : WellKeyed (.mapping entries)

theorem exists_of_itemShapes {path : Text} {index : Nat} {items : List Value} {ss : List Shape}
    (h : itemShapes path index items = .ok ss) :
    ∀ s ∈ ss, ∃ v ∈ items, ∃ path, v.shape path = .ok s := by
  induction items generalizing index ss with
  | nil =>
    cases h
    exact nofun
  | cons v rest ih =>
    rw [itemShapes_cons] at h
    obtain ⟨s, hs, h⟩ := exists_of_bind_eq_ok h
    obtain ⟨others, hothers, h⟩ := exists_of_bind_eq_ok h
    cases h
    rw [List.forall_mem_cons]
    refine ⟨⟨v, List.mem_cons_self, _, hs⟩, fun t ht => ?_⟩
    obtain ⟨w, hw, hshape⟩ := ih hothers t ht
    exact ⟨w, List.mem_cons_of_mem v hw, hshape⟩

/-- The fields of a mapping are named by its texts and have shapes of its values. -/
theorem exists_of_entryShapes {path : Text} {entries : List (Value × Value)}
    {fields : List (Text × Shape)} (h : entryShapes path entries = .ok fields) :
    Shape.names fields = entries.filterMap (fun e => e.1.text?) ∧
      ∀ f ∈ fields, ∃ e ∈ entries, ∃ path, e.2.shape path = .ok f.2 := by
  induction entries generalizing fields with
  | nil =>
    cases h
    exact ⟨rfl, nofun⟩
  | cons e rest ih =>
    obtain ⟨key, v⟩ := e
    cases key with
    | text key =>
      rw [entryShapes_cons] at h
      obtain ⟨s, hs, h⟩ := exists_of_bind_eq_ok h
      obtain ⟨others, hothers, h⟩ := exists_of_bind_eq_ok h
      cases h
      obtain ⟨hnames, hshapes⟩ := ih hothers
      refine ⟨congrArg (key :: ·) hnames, List.forall_mem_cons.2 ⟨?_, fun f hf => ?_⟩⟩
      · exact ⟨_, List.mem_cons_self, _, hs⟩
      · obtain ⟨e, he, hshape⟩ := hshapes f hf
        exact ⟨e, List.mem_cons_of_mem _ he, hshape⟩
    | _ => cases h

/-- **A value that has a shape has a valid one.** -/
theorem WellKeyed.valid {v : Value} (h : v.WellKeyed) {path : Text} {s : Shape}
    (hs : v.shape path = .ok s) : s.Valid := by
  induction h generalizing path s with
  | @plain v hseq hmap =>
    cases v with
    | sequence fixed items => exact absurd rfl (hseq fixed items)
    | mapping entries => exact absurd rfl (hmap entries)
    | set | bytes | decimal | date | moment | range | ellipsis | foreign => cases hs
    | _ =>
      cases hs
      exact Shape.valid_leaf _
  | sequence fixed _ ih =>
    rw [shape_sequence] at hs
    obtain ⟨ss, hss, hs⟩ := exists_of_bind_eq_ok hs
    cases hs
    refine Shape.valid_arrayOf fun s hs => ?_
    obtain ⟨w, hw, _, hshape⟩ := exists_of_itemShapes hss s hs
    exact ih w hw hshape
  | mapping distinct _ ih =>
    rw [shape_mapping] at hs
    obtain ⟨fields, hfields, hs⟩ := exists_of_bind_eq_ok hs
    cases hs
    obtain ⟨hnames, hshapes⟩ := exists_of_entryShapes hfields
    refine Shape.valid_objectOf (hnames ▸ distinct) fun f hf => ?_
    obtain ⟨e, he, _, hshape⟩ := hshapes f hf
    exact ih e he hshape

/-- The keys of a supported mapping are distinct. -/
theorem Supported.wellKeyed {holes : Prop} {v : Value} (h : v.Supported holes) : v.WellKeyed := by
  induction h with
  | undefined | null | boolean | integer | real | text => exact .plain nofun nofun
  | sequence fixed _ ih => exact .sequence fixed ih
  | @mapping entries distinct _ ih =>
    refine .mapping ?_ fun e he => ?_
    · have hkeys : ((entries.map fun e => (Value.text e.1, e.2)).filterMap fun e => e.1.text?) =
          entries.map (·.1) := by
        rw [List.filterMap_map]
        exact congrFun List.filterMap_eq_map entries
      rwa [hkeys]
    · obtain ⟨entry, hentry, rfl⟩ := List.mem_map.1 he
      exact ih entry hentry

/-! ### Samples with checks -/

section Checks

variable {ε : Type} {check : Shape → Except ε Shape} {refuse : Unsupported → ε}

theorem itemShapesBy_eq_mapError {items : List Value}
    (h : ∀ v ∈ items, ∀ path, shapeBy check refuse path v = (v.shape path).mapError refuse)
    (path : Text) (index : Nat) :
    itemShapesBy check refuse path index items =
      (itemShapes path index items).mapError refuse := by
  induction items generalizing index with
  | nil => rfl
  | cons v rest ih =>
    rw [List.forall_mem_cons] at h
    rw [itemShapesBy, itemShapes_cons, h.1, ih h.2]
    cases v.shape (itemPath path index) with
    | error u => rfl
    | ok s => cases itemShapes path (index + 1) rest <;> rfl

theorem entryShapesBy_eq_mapError {entries : List (Value × Value)}
    (h : ∀ e ∈ entries, ∀ path, shapeBy check refuse path e.2 = (e.2.shape path).mapError refuse)
    (path : Text) :
    entryShapesBy check refuse path entries = (entryShapes path entries).mapError refuse := by
  induction entries with
  | nil => rfl
  | cons e rest ih =>
    rw [List.forall_mem_cons] at h
    obtain ⟨key, v⟩ := e
    cases key with
    | text key =>
      rw [entryShapesBy, entryShapes_cons, h.1, ih h.2]
      cases v.shape (keyPath path key) with
      | error u => rfl
      | ok s => cases entryShapes path rest <;> rfl
    | _ => rfl

/-- **Reading a value with checks that valid shapes pass** fails only where reading it without
does. -/
theorem WellKeyed.shapeBy_eq (hcheck : ∀ s, s.Valid → check s = .ok s) {v : Value}
    (h : v.WellKeyed) (path : Text) :
    shapeBy check refuse path v = (v.shape path).mapError refuse := by
  induction h generalizing path with
  | @plain v hseq hmap =>
    cases v with
    | sequence fixed items => exact absurd rfl (hseq fixed items)
    | mapping entries => exact absurd rfl (hmap entries)
    | set | bytes | decimal | date | moment | range | ellipsis | foreign => rfl
    | _ => exact hcheck _ (Shape.valid_leaf _)
  | @sequence fixed items h ih =>
    have hvalid : ∀ s, shape path (.sequence fixed items) = .ok s → s.Valid := fun _ =>
      (WellKeyed.sequence fixed h).valid
    rw [shape_sequence] at hvalid ⊢
    rw [shapeBy, itemShapesBy_eq_mapError ih]
    cases hss : itemShapes path 0 items with
    | error u => rfl
    | ok ss =>
      rw [hss] at hvalid
      exact hcheck _ (hvalid _ rfl)
  | @mapping entries distinct h ih =>
    have hvalid : ∀ s, shape path (.mapping entries) = .ok s → s.Valid := fun _ =>
      (WellKeyed.mapping distinct h).valid
    rw [shape_mapping] at hvalid ⊢
    rw [shapeBy, entryShapesBy_eq_mapError ih]
    cases hfields : entryShapes path entries with
    | error u => rfl
    | ok fields =>
      rw [hfields] at hvalid
      exact hcheck _ (hvalid _ rfl)

end Checks

end Value

namespace Making

/-- Why an operation with checks fails. -/
inductive Fault where
  | refused (f : Shape.MakeFault)
  | sharedField (name : Text)
  | unsupported (u : Unsupported)

/-- Makes a shape once more from its parts, which have to pass the checks. -/
def check (s : Shape) : Except Fault Shape :=
  (Shape.make (s.leaves.map Leaf.name) s.fields s.items).mapError .refused

/-- The shape with one more leaf kind. -/
def withLeaf (l : Leaf) (s : Shape) : Except Fault Shape := Shape.withLeafBy check l s

/-- Shapes as things to join with checks; a shared field has to be found. -/
abbrev joinery : Joinery (Except Fault) Shape Shape :=
  Shape.joinery (fun name _ => .error (.sharedField name)) check

/-- The join of two shapes. -/
def join (a b : Shape) : Except Fault Shape := joinery.join a b

/-- The join of shapes from left to right, of which `s` is the first. -/
def joinAll (s : Shape) (rest : List Shape) : Except Fault Shape := joinery.joinAll s rest

/-- The normal form. -/
def normalize (s : Shape) : Except Fault Shape := Shape.normalizeBy check s

/-- The shape of a value found at a path. -/
def shape (path : Text) (v : Value) : Except Fault Shape :=
  Value.shapeBy check .unsupported path v

/-- The shapes of items, numbered from `index`. -/
def itemShapes (path : Text) (index : Nat) (items : List Value) : Except Fault (List Shape) :=
  Value.itemShapesBy check .unsupported path index items

/-! ### The checks pass -/

theorem ofName?_name (l : Leaf) : Leaf.ofName? l.name = some l := by cases l <;> decide

theorem eq_of_name_eq {l m : Leaf} (h : l.name = m.name) : l = m := by
  have hsome : some l = some m := by rw [← ofName?_name, ← ofName?_name, h]
  exact Option.some.inj hsome

theorem nodup_map_name {leaves : List Leaf} (h : leaves.Nodup) : (leaves.map Leaf.name).Nodup :=
  List.pairwise_map.2 (h.imp fun hne heq => hne (eq_of_name_eq heq))

/-- **What is formed passes the checks of `Shape.make`.** -/
theorem checkParts_eq_ok {leaves : List Leaf} {fields : Option (List (Text × Shape))}
    {items : Option (List Shape)} (h : Shape.FormedHere ⟨leaves, fields, items⟩) :
    Shape.checkParts (leaves.map Leaf.name) (Shape.names (fields.getD []))
      (fields.isSome || items.isSome) = .ok leaves := by
  have hrecognized : (leaves.map Leaf.name).filter (fun m => (Leaf.ofName? m).isNone) = [] := by
    refine List.filter_eq_nil_iff.2 fun m hm => ?_
    obtain ⟨l, -, rfl⟩ := List.mem_map.1 hm
    simp [ofName?_name]
  have hnames : (Shape.names (fields.getD [])).Nodup := by
    cases fields with
    | none => exact List.Pairwise.nil
    | some fs => exact h.names fs rfl
  have hkind : ¬ ((leaves.map Leaf.name).isEmpty && !(fields.isSome || items.isSome)) = true := by
    have hkinds := h.kinds
    cases leaves <;> cases fields <;> cases items <;>
      simp_all [Shape.kinds, Kind.all, Shape.isObject, Shape.isArray]
  have hleaves : (leaves.map Leaf.name).filterMap Leaf.ofName? = leaves := by
    rw [List.filterMap_map]
    exact (List.filterMap_congr fun l _ => ofName?_name l).trans List.filterMap_some
  unfold Shape.checkParts
  simp only [hrecognized, List.isEmpty_nil, Bool.not_true, Bool.false_eq_true, if_false]
  rw [if_neg (not_not_intro (nodup_map_name h.leaves)), if_neg (not_not_intro hnames),
    if_neg hkind, hleaves]

theorem check_eq_ok {s : Shape} (h : Shape.FormedHere s) : check s = .ok s := by
  obtain ⟨leaves, fields, items⟩ := s
  rw [check, Shape.make, checkParts_eq_ok h]
  rfl

theorem withLeaf_eq_ok {s : Shape} (h : Shape.FormedHere s) (l : Leaf) :
    withLeaf l s = .ok (s.withLeaf l) := by
  rw [withLeaf, Shape.withLeafBy]
  split
  · rename_i hl
    rw [Shape.withLeaf, if_pos hl]
    rfl
  · exact check_eq_ok h.withLeaf

/-! ### Joins -/

/-- **With checks, joins follow those without:** every shape put together in a join of formed
shapes passes the checks, and every shared field is found. -/
theorem follows : joinery.Follows id id where
  leaves _ := rfl
  fields s := by simp [Shape.joinery]
  items s := by simp [Shape.joinery]
  depth _ := rfl
  placeholder := rfl
  isPlaceholder _ := rfl
  equiv _ _ := rfl
  dedupe xs := by
    rw [List.map_id, List.map_id]
    rfl
  joinShared _ _ _ _ _ hj := hj
  makeOptional _ hs := withLeaf_eq_ok hs .undefined
  assemble _ _ _ hs := by simpa [Shape.joinery] using check_eq_ok hs

theorem join_eq_ok {a b : Shape} (ha : a.Formed) (hb : b.Formed) : join a b = .ok (a.join b) :=
  follows.join ha hb

theorem joinAll_eq_ok {s : Shape} {rest : List Shape} (hs : s.Formed)
    (hrest : ∀ t ∈ rest, t.Formed) : joinAll s rest = .ok (s.joinAll rest) := by
  have h := follows.joinAll hs hrest
  rwa [List.map_id] at h

/-! ### Normal forms and samples -/

/-- **Every shape put together for the normal form of a formed shape passes the checks.** -/
theorem normalize_eq_ok {s : Shape} (h : s.Formed) : normalize s = .ok s.normalize := by
  induction h with
  | intro here hf hx ihf ihx =>
    rename_i s
    by_cases hd : Shape.isDegenerate s
    · rw [Shape.normalize_of_isDegenerate hd]
      rcases Shape.isDegenerate_iff.1 hd with rfl | rfl <;> rfl
    · have hformed := here.normalize hd
      rw [Shape.normalize_eq hd] at hformed ⊢
      rw [normalize, Shape.normalizeBy_eq hd ihf ihx]
      exact check_eq_ok hformed

/-- **Every shape put together for a sample passes the checks.** -/
theorem shape_eq_ok {holes : Prop} {v : Value} (h : v.Supported holes) (path : Text) :
    shape path v = .ok v.form := by
  rw [shape, h.wellKeyed.shapeBy_eq fun s hs => check_eq_ok hs.here.toFormedHere, h.shape_eq]
  rfl

/-! ### Sketches without gaps -/

theorem withMarker_whole {s : Shape} (h : Shape.ValidHere s) (l : Leaf) :
    Sketch.withMarker l.name (.whole s) = .ok (.whole (s.withLeaf l)) := by
  have hformed := (h.withLeaf (l := l)).toFormedHere
  have hmem : l.name ∈ s.leaves.map Leaf.name ↔ l ∈ s.leaves := by
    constructor
    · intro hl
      obtain ⟨m, hm, heq⟩ := List.mem_map.1 hl
      exact eq_of_name_eq heq ▸ hm
    · exact List.mem_map_of_mem
  unfold Sketch.withMarker
  unfold Shape.withLeaf at hformed ⊢
  by_cases hl : l ∈ s.leaves
  · rw [if_pos hl]
    exact if_pos (hmem.2 hl)
  · rw [if_neg hl] at hformed ⊢
    refine (if_neg fun hname => hl (hmem.1 hname)).trans ?_
    have hnames : ((Sketch.whole s).fields.getD []).map (·.1) = Shape.names (s.fields.getD []) := by
      rw [Sketch.fields]
      cases s.fields with
      | none => rfl
      | some fs => exact List.map_map
    have hchecks : Shape.checkParts ((Sketch.whole s).leaves.map Leaf.name ++ [l.name])
        (((Sketch.whole s).fields.getD []).map (·.1))
        ((Sketch.whole s).fields.isSome || (Sketch.whole s).items.isSome) =
          .ok (s.leaves ++ [l]) := by
      have hparts := checkParts_eq_ok hformed
      rw [List.map_append] at hparts
      rw [hnames, Sketch.fields, Sketch.items, Option.isSome_map, Option.isSome_map]
      exact hparts
    rw [Sketch.make, hchecks]
    exact congrArg Except.ok (Sketch.assemble_whole _ _ _)

/-- **Every operation returns a valid shape.**  A supported value has a valid shape, and
the joins of valid shapes, their normal forms and those that may be unfilled as well are
valid.  All are returned also when each shape on the way has to pass the checks of
`Shape.make` and each shared field has to be found. -/
theorem operations_return_valid :
    (∀ (v : Value) (path : Text), v.Supported True →
      ∃ s, v.shape path = .ok s ∧ shape path v = .ok s ∧ s.Valid) ∧
    (∀ a b : Shape, a.Valid → b.Valid →
      ∃ s, Sketch.join (.whole a) (.whole b) = .ok (.whole s) ∧ join a b = .ok s ∧ s.Valid) ∧
    (∀ (a : Shape) (rest : List Shape), (∀ t ∈ a :: rest, t.Valid) →
      ∃ s, Sketch.joinAll ((a :: rest).map .whole) = .ok (.whole s) ∧
        joinAll a rest = .ok s ∧ s.Valid) ∧
    (∀ a : Shape, a.Valid →
      ∃ s, Sketch.normalize (.whole a) = .ok (.whole s) ∧ normalize a = .ok s ∧ s.Valid) ∧
    ∀ a : Shape, a.Valid →
      ∃ s, Sketch.withMarker Leaf.undefined.name (.whole a) = .ok (.whole s) ∧
        withLeaf .undefined a = .ok s ∧ s.Valid := by
  refine ⟨fun v path hv => ?_, fun a b ha hb => ?_, fun a rest h => ?_, fun a ha => ?_,
    fun a ha => ?_⟩
  · exact ⟨v.form, hv.shape_eq path, shape_eq_ok hv path, Shape.valid_form hv⟩
  · exact ⟨a.join b, Sketch.join_whole ha.formed hb.formed, join_eq_ok ha.formed hb.formed,
      Shape.valid_join ha hb⟩
  · rw [List.forall_mem_cons] at h
    have hrest : ∀ t ∈ rest, t.Formed := fun t ht => (h.2 t ht).formed
    exact ⟨_, Sketch.joinAll_whole h.1.formed hrest, joinAll_eq_ok h.1.formed hrest,
      Shape.valid_joinAll h.1 h.2⟩
  · exact ⟨a.normalize, rfl, normalize_eq_ok ha.formed, Shape.valid_normalize ha⟩
  · exact ⟨_, withMarker_whole ha.here .undefined,
      withLeaf_eq_ok ha.here.toFormedHere .undefined, Shape.valid_withLeaf ha⟩

/-- An object with one field. -/
def oneField : Shape := .object [("a", .leaf .number)]

/-- An object that shares the field with `oneField` and has another one. -/
def twoFields : Shape := .object [("a", .leaf .string), ("b", .leaf .null)]

theorem valid_oneField : oneField.Valid :=
  Shape.valid_object (by decide) (List.forall_mem_singleton.2 (Shape.valid_leaf .number))

theorem valid_twoFields : twoFields.Valid :=
  Shape.valid_object (by decide) (List.forall_mem_cons.2
    ⟨Shape.valid_leaf .string, List.forall_mem_singleton.2 (Shape.valid_leaf .null)⟩)

theorem operations_return_valid_oneField :
    oneField.Valid ∧ twoFields.Valid ∧
    (∃ s, (Value.sequence true [.undefined]).shape "$" = .ok s ∧
      shape "$" (.sequence true [.undefined]) = .ok s ∧ s.Valid) ∧
    (∃ s, Sketch.join (.whole oneField) (.whole twoFields) = .ok (.whole s) ∧
      join oneField twoFields = .ok s ∧ s.Valid) ∧
    (∃ s, Sketch.joinAll ([oneField, twoFields].map .whole) = .ok (.whole s) ∧
      joinAll oneField [twoFields] = .ok s ∧ s.Valid) ∧
    (∃ s, Sketch.normalize (.whole twoFields) = .ok (.whole s) ∧
      normalize twoFields = .ok s ∧ s.Valid) ∧
    ∃ s, Sketch.withMarker Leaf.undefined.name (.whole oneField) = .ok (.whole s) ∧
      withLeaf .undefined oneField = .ok s ∧ s.Valid := by
  obtain ⟨hshape, hjoin, hjoinAll, hnormalize, hwithLeaf⟩ := operations_return_valid
  refine ⟨valid_oneField, valid_twoFields, ?_, hjoin _ _ valid_oneField valid_twoFields, ?_,
    hnormalize _ valid_twoFields, hwithLeaf _ valid_oneField⟩
  · exact hshape _ _ (.sequence true (List.forall_mem_singleton.2 (.undefined trivial)))
  · exact hjoinAll _ _ (List.forall_mem_cons.2
      ⟨valid_oneField, List.forall_mem_singleton.2 valid_twoFields⟩)

end Making
end SampleShape
