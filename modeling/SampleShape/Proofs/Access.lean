/-
# Kinds at every place

An access pattern leads into a value: through the entry of a name, or to the items of a
sequence, whichever of them.  The same pattern leads into a shape, through the field of
that name and to the items of an array.  It may reach many values and many shapes, and how
many shapes there are changes with every join.

What does not change is which kinds are found there.  Two kinds do not count: `undefined`,
which a join adds to a field that one side lacks, and `unknown`, which stands in an empty
container and is dropped by a join.  Any other kind is found at a place

  * in equivalent shapes alike (`hasKindAt_congr`),
  * in a join exactly when it is found there in one of the two sides (`hasKindAt_join`),
  * in the shape of a value exactly when the value has it there (`hasKindAt_form`).

So the join of samples has, at every place, the kinds that the samples have there.
-/

import SampleShape.Proofs.Observations

namespace SampleShape

/-- A step into a value or a shape. -/
inductive Access where
  | field (name : Text)
  | item

/-- Whether a kind is a kind of filled places. -/
def Kind.IsFilled (k : Kind) : Prop := k ≠ .leaf .undefined ∧ k ≠ .leaf .unknown

namespace Shape

/-! ### Places in a shape -/

/-- The shape of the field of a given name, where objects were observed. -/
def get? (name : Text) (s : Shape) : Option Shape := s.fields.bind (field? name)

/-- The shapes that a pattern leads to. -/
def reached : List Access → Shape → List Shape
  | [], s => [s]
  | .field name :: p, s => (s.get? name).toList.flatMap (reached p)
  | .item :: p, s => s.itemList.flatMap (reached p)

/-- Whether a kind is found where a pattern leads to. -/
def HasKindAt (p : List Access) (k : Kind) (s : Shape) : Prop := ∃ t ∈ s.reached p, k ∈ t.kinds

theorem hasKindAt_nil {k : Kind} {s : Shape} : s.HasKindAt [] k ↔ k ∈ s.kinds := by
  simp [HasKindAt, reached]

theorem exists_get?_iff {name : Text} {s : Shape} {P : Shape → Prop} :
    (∃ t, s.get? name = some t ∧ P t) ↔
      ∃ fs, s.fields = some fs ∧ ∃ t, field? name fs = some t ∧ P t := by
  unfold get?
  cases s.fields <;> simp

theorem hasKindAt_field {name : Text} {p : List Access} {k : Kind} {s : Shape} :
    s.HasKindAt (.field name :: p) k ↔
      ∃ fs, s.fields = some fs ∧ ∃ t, field? name fs = some t ∧ t.HasKindAt p k := by
  rw [← exists_get?_iff]
  unfold HasKindAt
  cases ht : s.get? name <;> simp [reached, ht]

theorem hasKindAt_item {p : List Access} {k : Kind} {s : Shape} :
    s.HasKindAt (.item :: p) k ↔ ∃ x ∈ s.itemList, x.HasKindAt p k := by
  simp only [HasKindAt, reached, List.mem_flatMap]
  constructor
  · rintro ⟨t, ⟨x, hx, ht⟩, hk⟩
    exact ⟨x, hx, t, ht, hk⟩
  · rintro ⟨x, hx, t, ht, hk⟩
    exact ⟨t, ⟨x, hx, ht⟩, hk⟩

/-- **Equivalent shapes have the same kinds at every place.** -/
theorem hasKindAt_congr {a b : Shape} (h : a.equiv b) (p : List Access) (k : Kind) :
    a.HasKindAt p k ↔ b.HasKindAt p k := by
  induction p generalizing a b with
  | nil => simpa only [hasKindAt_nil] using mem_kinds_of_equiv h k
  | cons step p ih =>
    cases step with
    | field name =>
      rw [hasKindAt_field, hasKindAt_field]
      refine exists_fields_congr h fun fs gs hfs hgs => ?_
      rcases field?_of_equiv h hfs hgs name with ⟨hs, ht⟩ | ⟨s, t, hs, ht, hst⟩
      · simp [hs, ht]
      · simp [hs, ht, ih hst]
    | item =>
      rw [hasKindAt_item, hasKindAt_item]
      exact exists_mem_itemList_congr (fun h => ih h) h

/-- Nothing is found at a place that was not observed. -/
theorem not_hasKindAt_unknown {k : Kind} (hk : k.IsFilled) (p : List Access) :
    ¬ unknown.HasKindAt p k := by
  cases p with
  | nil =>
    intro h
    have hmem : k ∈ [Kind.leaf .unknown] := hasKindAt_nil.1 h
    exact hk.2 (List.mem_singleton.1 hmem)
  | cons step p =>
    cases step with
    | field name => simp [hasKindAt_field, unknown, leaf]
    | item => simp [hasKindAt_item, itemList, unknown, leaf]

/-- That a place may be unfilled adds no other kind, there or below. -/
theorem hasKindAt_withLeaf {k : Kind} (hk : k.IsFilled) (p : List Access) (s : Shape) :
    (s.withLeaf .undefined).HasKindAt p k ↔ s.HasKindAt p k := by
  cases p with
  | nil =>
    have hmem := shows_withLeaf s (.kind k)
    simpa [hasKindAt_nil, Shows, hk.1] using hmem
  | cons step p =>
    cases step with
    | field name => simp [hasKindAt_field]
    | item => simp [hasKindAt_item, itemList]

/-- **A join has at every place the kinds that its sides have there,** and no others. -/
theorem hasKindAt_join {k : Kind} (hk : k.IsFilled) (p : List Access) (a b : Shape) :
    (a.join b).HasKindAt p k ↔ a.HasKindAt p k ∨ b.HasKindAt p k := by
  -- the pattern gets shorter: joined items are no parts of either side
  induction p generalizing a b with
  | nil => simpa only [hasKindAt_nil] using mem_kinds_join
  | cons step p ih =>
    by_cases h : a.equiv b
    · rw [join_of_equiv h, ← hasKindAt_congr h, or_self]
    cases step with
    | field name =>
      simp only [hasKindAt_field]
      rw [join_of_not_equiv h]
      cases a.fields with
      | none => simp
      | some fs =>
        cases b.fields with
        | none => simp
        | some gs =>
          simp only [joinContent_some, Option.some.injEq, exists_eq_left', field?_joinFields]
          cases field? name fs <;> cases field? name gs <;> simp [ih, hasKindAt_withLeaf hk]
    | item =>
      simp only [hasKindAt_item]
      refine exists_mem_itemList_join h ?_
      exact exists_mem_joinItems_iff (fun h => hasKindAt_congr h p k)
        (not_hasKindAt_unknown hk p) fun x y => ih x y

end Shape

namespace Value

/-! ### Places in a value -/

/-- The value that a mapping holds under a name. -/
def get? (name : Text) : Value → Option Value
  | .mapping entries => find? name entries
  | _ => none

/-- The items of a sequence. -/
def itemList : Value → List Value
  | .sequence _ items => items
  | _ => []

/-- The values that a pattern leads to. -/
def reached : List Access → Value → List Value
  | [], v => [v]
  | .field name :: p, v => (v.get? name).toList.flatMap (reached p)
  | .item :: p, v => v.itemList.flatMap (reached p)

/-- The kind of a value that has a shape. -/
def kind? : Value → Option Kind
  | .sequence .. => some .array
  | .mapping _ => some .object
  | v => v.leaf?.map .leaf

/-- Whether a value of a given kind is found where a pattern leads to. -/
def HasKindAt (p : List Access) (k : Kind) (v : Value) : Prop :=
  ∃ w ∈ v.reached p, w.kind? = some k

theorem hasKindAt_field {name : Text} {p : List Access} {k : Kind} {v : Value} :
    v.HasKindAt (.field name :: p) k ↔ ∃ w, v.get? name = some w ∧ w.HasKindAt p k := by
  unfold HasKindAt
  cases hw : v.get? name <;> simp [reached, hw]

theorem hasKindAt_item {p : List Access} {k : Kind} {v : Value} :
    v.HasKindAt (.item :: p) k ↔ ∃ w ∈ v.itemList, w.HasKindAt p k := by
  simp only [HasKindAt, reached, List.mem_flatMap]
  constructor
  · rintro ⟨u, ⟨w, hw, hu⟩, hk⟩
    exact ⟨w, hw, u, hu, hk⟩
  · rintro ⟨w, hw, u, hu, hk⟩
    exact ⟨u, ⟨w, hw, hu⟩, hk⟩

theorem kind?_eq_leaf_iff {v : Value} {l : Leaf} : v.kind? = some (.leaf l) ↔ v.leaf? = some l := by
  cases v <;> simp [kind?, leaf?]

theorem kind?_eq_array_iff {v : Value} :
    v.kind? = some .array ↔ ∃ fixed vs, v = .sequence fixed vs := by
  cases v <;> simp [kind?, leaf?]

theorem kind?_eq_object_iff {v : Value} : v.kind? = some .object ↔ ∃ es, v = .mapping es := by
  cases v <;> simp [kind?, leaf?]

/-- No value is unknown. -/
theorem kind?_ne_unknown (v : Value) : v.kind? ≠ some (.leaf .unknown) := by
  cases v <;> simp [kind?, leaf?]

variable {holes : Prop}

/-- The shape of a value has the kind of the value. -/
theorem kinds_form {v : Value} (h : v.Supported holes) : v.form.kinds = v.kind?.toList := by
  cases h with
  | undefined | null | boolean | integer | real | text => rfl
  | sequence fixed h =>
    rw [form_sequence fixed h]
    rfl
  | mapping hn h =>
    rw [form_mapping h]
    rfl

/-- No value has the placeholder for a kind, so its shape has not. -/
theorem unknown_notMem_form {v : Value} (h : v.Supported holes) :
    Leaf.unknown ∉ v.form.leaves := by
  intro hmem
  have hkind : Kind.leaf .unknown ∈ v.form.kinds := Shape.mem_kinds_iff.2 hmem
  rw [kinds_form h, Option.mem_toList] at hkind
  exact v.kind?_ne_unknown hkind

/-- What is found under a name is found there in the entries. -/
theorem mem_of_find? {entries : List (Text × Value)} {name : Text} {w : Value}
    (h : find? name (entries.map fun e => (.text e.1, e.2)) = some w) : (name, w) ∈ entries := by
  induction entries with
  | nil => simp [find?] at h
  | cons e rest ih =>
    rw [List.map_cons, find?] at h
    by_cases hname : e.1 = name
    · rw [if_pos hname] at h
      obtain rfl := Option.some.inj h
      exact hname ▸ List.mem_cons_self
    · rw [if_neg hname] at h
      exact List.mem_cons_of_mem e (ih h)

/-- The fields of a mapping's shape are the shapes of its entries, name by name. -/
theorem field?_map_form (entries : List (Text × Value)) (name : Text) :
    Shape.field? name (entries.map fun e => (e.1, e.2.form)) =
      (find? name (entries.map fun e => (.text e.1, e.2))).map form := by
  induction entries with
  | nil => rfl
  | cons e rest ih =>
    rw [List.map_cons, List.map_cons, Shape.field?_cons, find?, ih]
    by_cases hname : e.1 = name
    · simp [hname]
    · simp [hname, Ne.symm hname]

/-- What a supported value holds is supported. -/
theorem Supported.get? {v w : Value} {name : Text} (h : v.Supported holes)
    (hw : v.get? name = some w) : w.Supported holes := by
  cases h with
  | undefined | null | boolean | integer | real | text | sequence => simp [Value.get?] at hw
  | mapping hn h => exact h (name, w) (mem_of_find? hw)

/-- **The shape of a value has the shapes of its entries,** name by name.  The placeholder
of an empty mapping is the only field besides. -/
theorem get?_form {v : Value} (h : v.Supported holes) (name : Text) :
    v.form.get? name = (v.get? name).map form ∨
      (name = Shape.anyKey ∧ v.get? name = none ∧ v.form.get? name = some .unknown) := by
  cases h with
  | undefined | null | boolean | integer | real | text => exact Or.inl rfl
  | sequence fixed h =>
    rw [form_sequence fixed h]
    exact Or.inl rfl
  | mapping hn h =>
    rename_i entries
    rw [form_mapping h, objectOf, Shape.object]
    simp only [Shape.get?, Option.bind_some, get?]
    cases entries with
    | nil => by_cases hname : name = Shape.anyKey <;> simp [Shape.field?_cons, hname, find?]
    | cons e rest => exact Or.inl (field?_map_form (e :: rest) name)

/-- **The shape of a value has at every place the kinds that the value has there,** and
no others. -/
theorem hasKindAt_form {k : Kind} (hk : k.IsFilled) (p : List Access) {v : Value}
    (h : v.Supported holes) : v.form.HasKindAt p k ↔ v.HasKindAt p k := by
  induction p generalizing v with
  | nil => simp [Shape.hasKindAt_nil, kinds_form h, HasKindAt, reached]
  | cons step p ih =>
    cases step with
    | field name =>
      rw [Shape.hasKindAt_field, hasKindAt_field, ← Shape.exists_get?_iff]
      rcases get?_form h name with hsame | ⟨-, hnone, hunknown⟩
      · simp only [hsame, Option.map_eq_some_iff, exists_exists_and_eq_and]
        exact exists_congr fun w => and_congr_right fun hw => ih (h.get? hw)
      · -- the placeholder has no kind that counts
        simp [hnone, hunknown, Shape.not_hasKindAt_unknown hk p]
    | item =>
      rw [Shape.hasKindAt_item, hasKindAt_item]
      cases h with
      | undefined | null | boolean | integer | real | text =>
        simp [form, shape, shapeBy, leaf?, Except.toOption, Shape.leaf, Shape.itemList, itemList]
      | mapping hn h =>
        simp [form_mapping h, objectOf, Shape.object, Shape.itemList, itemList]
      | sequence fixed h =>
        rename_i items
        rw [form_sequence fixed h, arrayOf, Shape.array]
        simp only [Shape.itemList, Option.getD_some, itemList]
        cases items with
        | nil => simp [Shape.not_hasKindAt_unknown hk p]
        | cons w rest =>
          show (∃ x ∈ Shape.dedupe ((w :: rest).map form), x.HasKindAt p k) ↔ _
          rw [Shape.exists_mem_dedupe_iff fun h => Shape.hasKindAt_congr h p k]
          simp only [List.mem_map, exists_exists_and_eq_and]
          exact exists_congr fun u => and_congr_right fun hu => ih (h u hu)

end Value

namespace Shape

/-- **No kind is lost and none is invented.**  The samples are joined to a shape that has,
at every place an access pattern leads to, the kinds that the samples have there, apart
from `undefined` and the placeholder. -/
theorem observed_kinds_exact {samples : List Value} (hne : samples ≠ [])
    (h : ∀ v ∈ samples, v.Supported True) :
    ∃ s, observed samples = .ok s ∧ ∀ (p : List Access) (k : Kind),
      (s.HasKindAt p k ∧ k ≠ .leaf .undefined ∧ k ≠ .leaf .unknown) ↔
        ((∃ v ∈ samples, v.HasKindAt p k) ∧ k ≠ .leaf .undefined) := by
  obtain ⟨v, rest, rfl⟩ := List.exists_cons_of_ne_nil hne
  refine ⟨_, observed_eq h, fun p k => ?_⟩
  have hfilled : k.IsFilled → ((joinAll v.form (rest.map Value.form)).HasKindAt p k ↔
      ∃ w ∈ v :: rest, w.HasKindAt p k) := by
    intro hk
    rw [joinAll_form_iff (P := HasKindAt p k) fun x y => hasKindAt_join hk p x y]
    exact exists_congr fun w => and_congr_right fun hw => Value.hasKindAt_form hk p (h w hw)
  constructor
  · rintro ⟨hs, hk⟩
    exact ⟨(hfilled hk).1 hs, hk.1⟩
  · rintro ⟨hv, hundefined⟩
    have hunknown : k ≠ .leaf .unknown := by
      rintro rfl
      obtain ⟨w, -, u, -, hu⟩ := hv
      exact u.kind?_ne_unknown hu
    exact ⟨(hfilled ⟨hundefined, hunknown⟩).2 hv, hundefined, hunknown⟩

/-- Samples with a slot that was never filled, empty containers, and one sample twice. -/
def patchySamples : List Value :=
  [.mapping [(.text "a", .sequence false [.undefined, .sequence true [.integer 1]])],
    .mapping [(.text "a", .sequence false [])], .mapping [],
    .mapping [(.text "a", .sequence false [])]]

theorem supported_patchySamples : ∀ v ∈ patchySamples, v.Supported True := by
  have hnested : (Value.sequence true [.integer 1]).Supported True :=
    .sequence true (List.forall_mem_singleton.2 (.integer 1))
  have hfilled : (Value.sequence false [.undefined, .sequence true [.integer 1]]).Supported True :=
    .sequence false (List.forall_mem_cons.2
      ⟨.undefined trivial, List.forall_mem_singleton.2 hnested⟩)
  have hempty : (Value.sequence false []).Supported True := .sequence false nofun
  have hnothing : (Value.mapping []).Supported True :=
    @Value.Supported.mapping _ [] List.Pairwise.nil nofun
  rw [patchySamples, List.forall_mem_cons, List.forall_mem_cons, List.forall_mem_cons,
    List.forall_mem_singleton]
  exact ⟨hfilled.singleton "a", hempty.singleton "a", hnothing, hempty.singleton "a"⟩

theorem observed_kinds_exact_patchySamples :
    patchySamples ≠ [] ∧ (∀ v ∈ patchySamples, v.Supported True) ∧
      ∃ s, observed patchySamples = .ok s ∧ ∀ (p : List Access) (k : Kind),
        (s.HasKindAt p k ∧ k ≠ .leaf .undefined ∧ k ≠ .leaf .unknown) ↔
          ((∃ v ∈ patchySamples, v.HasKindAt p k) ∧ k ≠ .leaf .undefined) :=
  ⟨List.cons_ne_nil _ _, supported_patchySamples,
    observed_kinds_exact (List.cons_ne_nil _ _) supported_patchySamples⟩

end Shape
end SampleShape
