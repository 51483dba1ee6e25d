/-
# Fields that may be unfilled, at every depth

A path of names leads into a value through entries, and into a shape through fields.  Where
the joined shape of samples has a field, its mark says that some sample leaves it open: the
sample has a mapping there that does not have the name, or holds `undefined` under it
(`Value.LeavesOpen`).  Nothing else sets the mark, and nothing removes it.

The mark is one of the facts that a join shows exactly if either side does (`shows_join`), and
so is the presence of a field; a path puts such a fact below others (`Fact.under`).  So both
are read off the shapes of the samples one by one (`shows_under_form`), whatever else the
samples have at that place, and whether they are joined there or found equivalent.
-/

import SampleShape.Proofs.Absence

namespace SampleShape

/-- A fact below the fields that a path of names leads through. -/
def Fact.under : List Text → Fact → Fact
  | [], f => f
  | k :: path, f => .field k (under path f)

theorem Fact.under_ne_kind {f : Fact} {k : Kind} (hf : f ≠ .kind k) (path : List Text) :
    f.under path ≠ .kind k := by
  cases path with
  | nil => exact hf
  | cons _ path => exact nofun

namespace Shape

/-- The shape that a path of names leads to, through fields. -/
def follow : List Text → Shape → Option Shape
  | [], s => some s
  | name :: path, s => (s.get? name).bind (follow path)

/-- A fact below a path is shown where the path leads. -/
theorem shows_under_iff {path : List Text} {f : Fact} (hf : f ≠ .kind (.leaf .undefined))
    {s : Shape} : s.Shows (f.under path) ↔ ∃ t, s.follow path = some t ∧ t.Shows f := by
  induction path generalizing s with
  | nil => simp [Fact.under, follow]
  | cons name path ih =>
    have hne : f.under path ≠ .kind (.leaf .undefined) := Fact.under_ne_kind hf path
    rw [Fact.under, shows_field_iff, follow]
    simp only [hne, and_false, or_false, ih, Option.bind_eq_some_iff]
    constructor
    · rintro ⟨t, ht, u, hu, hshows⟩
      exact ⟨u, ⟨t, ht, hu⟩, hshows⟩
    · rintro ⟨u, ⟨t, ht, hu⟩, hshows⟩
      exact ⟨t, ht, u, hu, hshows⟩

end Shape

namespace Value

/-- The value that a path of names leads to, through entries. -/
def follow : List Text → Value → Option Value
  | [], v => some v
  | name :: path, v => (v.get? name).bind (follow path)

/-- The names of the fields that a mapping has as a shape: its keys, or the one that stands
for all if it has none. -/
def fieldNames (entries : List (Value × Value)) : List Text :=
  if entries.isEmpty then [Shape.anyKey] else entries.filterMap fun e => e.1.text?

/-- Whether a value is a mapping with a field of a given name. -/
def HasField (name : Text) (v : Value) : Prop :=
  ∃ entries, v = .mapping entries ∧ name ∈ fieldNames entries

/-- Whether a value is a mapping that leaves a field open: it has not got the name, or holds
`undefined` there. -/
def LeavesOpen (name : Text) (v : Value) : Prop :=
  ∃ entries, v = .mapping entries ∧
    (name ∉ fieldNames entries ∨ find? name entries = some .undefined)

variable {holes : Prop}

/-! ### Fields of a mapping -/

theorem undefined_mem_kinds_form {v : Value} (h : v.Supported holes) :
    Kind.leaf .undefined ∈ v.form.kinds ↔ v = .undefined := by
  rw [kinds_form h]
  cases h <;> simp [kind?, leaf?]

theorem filterMap_text? (entries : List (Text × Value)) :
    (entries.map fun e => (text e.1, e.2)).filterMap (fun e => e.1.text?) =
      entries.map (·.1) := by
  rw [List.filterMap_map]
  exact congrFun List.filterMap_eq_map entries

/-- The shape of a mapping has a field for each of its field names. -/
theorem exists_fields_form {v : Value} (h : v.Supported holes) {entries : List (Value × Value)}
    (hv : v = .mapping entries) :
    ∃ fs, v.form.fields = some fs ∧ Shape.names fs = fieldNames entries := by
  subst hv
  cases h with
  | @mapping entries hn h =>
    refine ⟨_, by rw [form_mapping h, objectOf, Shape.object], ?_⟩
    cases entries with
    | nil => rfl
    | cons e rest =>
      show Shape.names ((e :: rest).map fun e => (e.1, e.2.form)) = _
      rw [names_map_form, ← filterMap_text?]
      rfl

/-- Only mappings have fields. -/
theorem exists_mapping_of_isObject {v : Value} (h : v.Supported holes)
    (hobject : v.form.isObject = true) : ∃ entries, v = .mapping entries := by
  have hkind : Kind.object ∈ v.form.kinds := Shape.mem_kinds_iff.2 hobject
  rw [kinds_form h, Option.mem_toList] at hkind
  exact kind?_eq_object_iff.1 hkind

/-- The shape of a value has a field exactly if the value is a mapping with that field. -/
theorem shows_name_form_iff {v : Value} (h : v.Supported holes) {name : Text} :
    v.form.Shows (.name name) ↔ v.HasField name := by
  constructor
  · rintro ⟨fs, hfs, hmem⟩
    obtain ⟨entries, hv⟩ := exists_mapping_of_isObject h (by rw [Shape.isObject, hfs]; rfl)
    obtain ⟨fs', hfs', hnames⟩ := exists_fields_form h hv
    obtain rfl : fs = fs' := Option.some.inj (hfs.symm.trans hfs')
    exact ⟨entries, hv, hnames ▸ hmem⟩
  · rintro ⟨entries, hv, hmem⟩
    obtain ⟨fs, hfs, hnames⟩ := exists_fields_form h hv
    exact ⟨fs, hfs, hnames ▸ hmem⟩

/-- **The shape of a value shows that a field may be unfilled exactly if the value leaves it
open.** -/
theorem shows_undefined_form_iff {v : Value} (h : v.Supported holes) {name : Text} :
    v.form.Shows (.field name (.kind (.leaf .undefined))) ↔ v.LeavesOpen name := by
  rw [Shape.shows_field_iff]
  constructor
  · rintro (⟨t, ht, hshows⟩ | ⟨hobject, hnone, -⟩)
    · rcases get?_form h name with hsame | ⟨-, -, hunknown⟩
      · rw [hsame] at ht
        obtain ⟨w, hw, rfl⟩ := Option.map_eq_some_iff.1 ht
        obtain rfl := (undefined_mem_kinds_form (h.get? hw)).1 hshows
        cases v with
        | mapping entries => exact ⟨entries, rfl, Or.inr hw⟩
        | _ => cases hw
      · -- the placeholder of an empty mapping is no sign of absence
        obtain rfl := Option.some.inj (hunknown.symm.trans ht)
        cases List.mem_singleton.1 hshows
    · obtain ⟨entries, hv⟩ := exists_mapping_of_isObject h hobject
      obtain ⟨fs, hfs, hnames⟩ := exists_fields_form h hv
      rw [Shape.get?, hfs] at hnone
      exact ⟨entries, hv, Or.inl (hnames ▸ Shape.field?_eq_none_iff.1 hnone)⟩
  · rintro ⟨entries, hv, hopen⟩
    obtain ⟨fs, hfs, hnames⟩ := exists_fields_form h hv
    rcases hopen with hmissing | hundefined
    · refine Or.inr ⟨by rw [Shape.isObject, hfs]; rfl, ?_, rfl⟩
      rw [Shape.get?, hfs]
      exact Shape.field?_eq_none_iff.2 (hnames ▸ hmissing)
    · have hentry : v.get? name = some .undefined := hv ▸ hundefined
      have hsame := (get?_form h name).resolve_right fun hany => by
        rw [hentry] at hany
        cases hany.2.1
      exact Or.inl ⟨_, hsame.trans (congrArg _ hentry), List.mem_singleton.2 rfl⟩

/-! ### Paths into a value -/

theorem Supported.follow {path : List Text} {v w : Value} (h : v.Supported holes)
    (hw : v.follow path = some w) : w.Supported holes := by
  induction path generalizing v with
  | nil => exact Option.some.inj hw ▸ h
  | cons name path ih =>
    obtain ⟨u, hu, hw⟩ := Option.bind_eq_some_iff.1 hw
    exact ih (h.get? hu) hw

/-- **A path leads into the shape of a value as it leads into the value,** except that it may
end at the placeholder of an empty mapping. -/
theorem follow_form (path : List Text) {v : Value} (h : v.Supported holes) :
    v.form.follow path = (v.follow path).map form ∨
      (v.follow path = none ∧ v.form.follow path = some .unknown) := by
  induction path generalizing v with
  | nil => exact Or.inl rfl
  | cons name path ih =>
    rw [Shape.follow, follow]
    rcases get?_form h name with hsame | ⟨-, hnone, hunknown⟩
    · cases hw : v.get? name with
      | none =>
        rw [hsame, hw]
        exact Or.inl rfl
      | some w =>
        rw [hsame, hw]
        exact ih (h.get? hw)
    · rw [hnone, hunknown]
      cases path with
      | nil => exact Or.inr ⟨rfl, rfl⟩
      | cons next path => exact Or.inl rfl

/-- A fact below a path is shown by the shape of a value if it is shown by the shape of the
value that the path leads to. -/
theorem shows_under_form {path : List Text} {f : Fact} (hf : f ≠ .kind (.leaf .undefined))
    (hunknown : ¬ Shape.unknown.Shows f) {v : Value} (h : v.Supported holes) :
    v.form.Shows (f.under path) ↔ ∃ w, v.follow path = some w ∧ w.form.Shows f := by
  rw [Shape.shows_under_iff hf]
  rcases follow_form path h with hsame | ⟨hnone, hplaceholder⟩
  · simp only [hsame, Option.map_eq_some_iff, exists_exists_and_eq_and]
  · simp only [hnone, hplaceholder, Option.some.injEq, exists_eq_left', reduceCtorEq, false_and,
      exists_false, hunknown]

/-- What is said of the mappings that samples have at a place, is said of the mappings. -/
theorem exists_mapping_iff {samples : List Value} {path : List Text}
    {P : List (Value × Value) → Prop} :
    (∃ v ∈ samples, ∃ w, v.follow path = some w ∧ ∃ es, w = .mapping es ∧ P es) ↔
      ∃ es, (∃ v ∈ samples, v.follow path = some (.mapping es)) ∧ P es := by
  constructor
  · rintro ⟨v, hv, _, hw, es, rfl, hes⟩
    exact ⟨es, ⟨v, hv, hw⟩, hes⟩
  · rintro ⟨es, ⟨v, hv, hw⟩, hes⟩
    exact ⟨v, hv, _, hw, es, rfl, hes⟩

end Value

namespace Shape

variable {holes : Prop} {v : Value} {rest : List Value} {path : List Text} {name : Text}

/-! ### Fields of the joined shape -/

/-- The field of a given name where a path leads to. -/
def fieldAt (path : List Text) (name : Text) (s : Shape) : Option Shape :=
  (s.follow path).bind (get? name)

theorem isSome_fieldAt_iff {s : Shape} :
    (s.fieldAt path name).isSome = true ↔ ∃ o, s.follow path = some o ∧ o.Shows (.name name) := by
  rw [fieldAt]
  cases s.follow path with
  | none => simp
  | some o => simp [shows_name_iff, Option.isSome_iff_exists]

theorem isOptional_iff_of_fieldAt {s t : Shape} (ht : s.fieldAt path name = some t) :
    t.isOptional = true ↔
      ∃ o, s.follow path = some o ∧ o.Shows (.field name (.kind (.leaf .undefined))) := by
  obtain ⟨o, ho, hfield⟩ := Option.bind_eq_some_iff.1 ht
  have hkind : t.isOptional = true ↔ t.Shows (.kind (.leaf .undefined)) := by
    rw [Value.isOptional_iff, Shows, mem_kinds_iff]
  simp only [ho, Option.some.injEq, exists_eq_left', shows_field_iff, hfield, reduceCtorEq,
    false_and, and_false, or_false, hkind]

/-- What the joined shape shows where a path leads to is what the samples show there. -/
theorem exists_follow_joinAll {f : Fact} (hf : f ≠ .kind (.leaf .undefined))
    (hunknown : ¬ unknown.Shows f) (h : ∀ w ∈ v :: rest, w.Supported holes) :
    (∃ o, (joinAll v.form (rest.map Value.form)).follow path = some o ∧ o.Shows f) ↔
      ∃ w ∈ v :: rest, ∃ u, w.follow path = some u ∧ u.form.Shows f := by
  rw [← shows_under_iff hf, shows_joinAll_form]
  exact exists_congr fun w => and_congr_right fun hw =>
    Value.shows_under_form hf hunknown (h w hw)

/-- **A field is there exactly if a sample has a mapping with that field there.** -/
theorem isSome_fieldAt_joinAll (h : ∀ w ∈ v :: rest, w.Supported holes) :
    ((joinAll v.form (rest.map Value.form)).fieldAt path name).isSome = true ↔
      ∃ w ∈ v :: rest, ∃ u, w.follow path = some u ∧ u.HasField name := by
  rw [isSome_fieldAt_iff, exists_follow_joinAll (f := .name name) nofun nofun h]
  refine exists_congr fun w => and_congr_right fun hw => exists_congr fun u => ?_
  exact and_congr_right fun hu => Value.shows_name_form_iff ((h w hw).follow hu)

/-- **A field may be unfilled exactly if a sample leaves it open there.** -/
theorem isOptional_fieldAt_joinAll (h : ∀ w ∈ v :: rest, w.Supported holes) {t : Shape}
    (ht : (joinAll v.form (rest.map Value.form)).fieldAt path name = some t) :
    t.isOptional = true ↔ ∃ w ∈ v :: rest, ∃ u, w.follow path = some u ∧ u.LeavesOpen name := by
  rw [isOptional_iff_of_fieldAt ht, exists_follow_joinAll (f := .field name _) nofun nofun h]
  refine exists_congr fun w => and_congr_right fun hw => exists_congr fun u => ?_
  exact and_congr_right fun hu => Value.shows_undefined_form_iff ((h w hw).follow hu)

/-- **Optional exactly where a sample leaves it open.**  A field of the joined shape, at any
depth, may be unfilled if and only if some sample has a mapping in that place which has not
got the field or holds `undefined` there.  Samples that have no mapping in that place have no
part in it: where two lists of samples have the same mappings there, they have the same fields
there, and of these the same may be unfilled. -/
theorem isOptional_observed_iff {samples : List Value} (hne : samples ≠ [])
    (h : ∀ v ∈ samples, v.Supported True) :
    ∃ s, observed samples = .ok s ∧ ∀ (path : List Text) (name : Text),
      (∀ t, s.fieldAt path name = some t → (t.isOptional = true ↔
        ∃ v ∈ samples, ∃ w, v.follow path = some w ∧ w.LeavesOpen name)) ∧
      ∀ others : List Value, others ≠ [] → (∀ v ∈ others, v.Supported True) →
        (∀ es, (∃ v ∈ others, v.follow path = some (.mapping es)) ↔
          ∃ v ∈ samples, v.follow path = some (.mapping es)) →
        ∃ s', observed others = .ok s' ∧
          (s'.fieldAt path name).map isOptional = (s.fieldAt path name).map isOptional := by
  obtain ⟨v, rest, rfl⟩ := List.exists_cons_of_ne_nil hne
  refine ⟨_, observed_eq h, fun path name => ⟨fun t => isOptional_fieldAt_joinAll h, ?_⟩⟩
  intro others hne' h' hsame
  obtain ⟨v', rest', rfl⟩ := List.exists_cons_of_ne_nil hne'
  refine ⟨_, observed_eq h', ?_⟩
  have hthere : ((joinAll v'.form (rest'.map Value.form)).fieldAt path name).isSome = true ↔
      ((joinAll v.form (rest.map Value.form)).fieldAt path name).isSome = true := by
    rw [isSome_fieldAt_joinAll h', isSome_fieldAt_joinAll h]
    simp only [Value.HasField, Value.exists_mapping_iff, hsame]
  cases ht : (joinAll v.form (rest.map Value.form)).fieldAt path name with
  | none =>
    rw [ht] at hthere
    cases ht' : (joinAll v'.form (rest'.map Value.form)).fieldAt path name with
    | none => rfl
    | some t' => simp [ht'] at hthere
  | some t =>
    rw [ht] at hthere
    obtain ⟨t', ht'⟩ := Option.isSome_iff_exists.1 (hthere.2 rfl)
    rw [ht', Option.map_some, Option.map_some, Option.some.injEq, Bool.eq_iff_iff,
      isOptional_fieldAt_joinAll h ht, isOptional_fieldAt_joinAll h' ht']
    simp only [Value.LeavesOpen, Value.exists_mapping_iff, hsame]

/-- Samples that differ in what they have under `"a"`: a mapping with the field `"b"`, a
mapping without it, an empty one, a number, and nothing. -/
def unevenSamples : List Value :=
  [.mapping [(.text "a", .mapping [(.text "b", .integer 1)])],
    .mapping [(.text "a", .mapping [])], .mapping [(.text "a", .integer 1)], .mapping [], .null]

/-- The samples among them that have a mapping under `"a"`, in the other order. -/
def evenSamples : List Value :=
  [.mapping [(.text "a", .mapping [])],
    .mapping [(.text "a", .mapping [(.text "b", .integer 1)])]]

theorem supported_unevenSamples : ∀ v ∈ unevenSamples, v.Supported True := by
  have hnothing : (Value.mapping []).Supported True :=
    @Value.Supported.mapping _ [] List.Pairwise.nil nofun
  have hfilled : (Value.mapping [(.text "b", .integer 1)]).Supported True :=
    Value.Supported.singleton (.integer 1) "b"
  rw [unevenSamples, List.forall_mem_cons, List.forall_mem_cons, List.forall_mem_cons,
    List.forall_mem_cons, List.forall_mem_singleton]
  exact ⟨hfilled.singleton "a", hnothing.singleton "a",
    Value.Supported.singleton (.integer 1) "a", hnothing, .null⟩

theorem mem_unevenSamples_of_mem : ∀ v ∈ evenSamples, v ∈ unevenSamples := by
  simp [evenSamples, unevenSamples]

theorem same_mappings_evenSamples (es : List (Value × Value)) :
    (∃ v ∈ evenSamples, v.follow ["a"] = some (.mapping es)) ↔
      ∃ v ∈ unevenSamples, v.follow ["a"] = some (.mapping es) := by
  simp [evenSamples, unevenSamples, Value.follow, Value.get?, Value.find?, or_comm]

theorem isOptional_observed_iff_unevenSamples :
    (∀ v ∈ unevenSamples, v.Supported True) ∧
      ∃ s t s', observed unevenSamples = .ok s ∧ s.fieldAt ["a"] "b" = some t ∧
        (t.isOptional = true ↔
          ∃ v ∈ unevenSamples, ∃ w, v.follow ["a"] = some w ∧ w.LeavesOpen "b") ∧
        observed evenSamples = .ok s' ∧ (s'.fieldAt ["a"] "b").map isOptional = some true := by
  obtain ⟨s, hs, hall⟩ := isOptional_observed_iff (List.cons_ne_nil _ _) supported_unevenSamples
  obtain ⟨hiff, hothers⟩ := hall ["a"] "b"
  have hfield : s.fieldAt ["a"] "b" = some ⟨[.number, .undefined], none, none⟩ := by
    obtain rfl := Except.ok.inj (hs.symm.trans (observed_eq supported_unevenSamples))
    rfl
  obtain ⟨s', hs', heq⟩ := hothers evenSamples (List.cons_ne_nil _ _)
    (fun v hv => supported_unevenSamples v (mem_unevenSamples_of_mem v hv))
    same_mappings_evenSamples
  rw [hfield] at heq
  exact ⟨supported_unevenSamples, s, _, s', hs, hfield, hiff _ hfield, hs', heq⟩

end Shape
end SampleShape
