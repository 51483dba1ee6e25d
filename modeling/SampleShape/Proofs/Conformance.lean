/-
# Every sample conforms to the inferred shape

A value conforms to a shape when the shape has its leaf kind, has items and every
item of the value conforms to one of them, or has fields and every entry of the value
conforms to the field of its name, where a field that the value has no entry for must
be optional.

The placeholder has two readings.  In an inferred shape it stands for a place about
which nothing is known, so it is *free*: every value conforms to it.  While shapes are
still being joined it stands for no observation at all, and gives way to any other
item; in this *strict* reading it admits no value.

  * Strictly, a value conforms to its own shape (`conforms_form`), conformance is the
    same for equivalent shapes (`conforms_congr`), and what conforms to either side of a
    join conforms to the join (`conforms_join`).
  * What conforms strictly to a shape conforms freely to its normal form, if an optional
    field is never merely optional (`conforms_normalize`).

A field that is merely optional, with no other kind, would lose its mark in the normal
form.  The shapes of JSON samples have none, and no join makes one (`Solid`).
-/

import SampleShape.Proofs.Validity

namespace SampleShape
namespace Value

theorem sizeOf_item_lt {fixed : Bool} {vs : List Value} {v : Value} (h : v ∈ vs) :
    sizeOf v < sizeOf (sequence fixed vs) := by
  have hlt := List.sizeOf_lt_of_mem h
  simp only [sequence.sizeOf_spec]
  omega

theorem sizeOf_entry_lt {es : List (Value × Value)} {e : Value × Value} (h : e ∈ es) :
    sizeOf e.2 < sizeOf (mapping es) := by
  have hlt := List.sizeOf_lt_of_mem h
  have he : sizeOf e.2 < sizeOf e := by
    obtain ⟨k, w⟩ := e
    simp only [Prod.mk.sizeOf_spec]
    omega
  simp only [mapping.sizeOf_spec]
  omega

/-- **Induction on nesting** of values. -/
theorem induct {P : Value → Prop}
    (step : ∀ v : Value, (∀ fixed vs, v = .sequence fixed vs → ∀ w ∈ vs, P w) →
      (∀ es, v = .mapping es → ∀ e ∈ es, P e.2) → P v) (v : Value) : P v :=
  step v (fun _ _ _ w _ => induct step w) fun _ _ e _ => induct step e.2
termination_by sizeOf v
decreasing_by
  · subst v
    exact sizeOf_item_lt ‹_›
  · subst v
    exact sizeOf_entry_lt ‹_›

mutual

/-- Whether a value conforms to a shape; `free` says whether every value conforms to
the placeholder. -/
def Conforms (free : Prop) : Value → Shape → Prop
  | .sequence _ vs, s => (free ∧ .unknown ∈ s.leaves) ∨
      ∃ xs, s.items = some xs ∧ ItemsConform free vs xs
  | .mapping es, s => (free ∧ .unknown ∈ s.leaves) ∨
      ∃ fs, s.fields = some fs ∧ EntriesConform free es fs ∧
        ∀ k t, Shape.field? k fs = some t → k ≠ Shape.anyKey → find? k es = none →
          t.isOptional = true
  | v, s => (free ∧ .unknown ∈ s.leaves) ∨ ∃ l, v.leaf? = some l ∧ l ∈ s.leaves
termination_by structural v => v

/-- Whether each value conforms to one of the shapes. -/
def ItemsConform (free : Prop) : List Value → List Shape → Prop
  | [], _ => True
  | v :: vs, xs => (∃ x ∈ xs, v.Conforms free x) ∧ ItemsConform free vs xs
termination_by structural vs => vs

/-- Whether each entry conforms to the field that its key names. -/
def EntriesConform (free : Prop) : List (Value × Value) → List (Text × Shape) → Prop
  | [], _ => True
  | (.text k, v) :: rest, fs =>
    (∃ s, Shape.field? k fs = some s ∧ v.Conforms free s) ∧ EntriesConform free rest fs
  | _ :: _, _ => False
termination_by structural es => es

end

/-- Whether the entries of a mapping conform to fields, and the fields without an entry
are optional. -/
def Fits (free : Prop) (es : List (Value × Value)) (fs : List (Text × Shape)) : Prop :=
  (∀ e ∈ es, ∃ k s, e.1 = .text k ∧ Shape.field? k fs = some s ∧ e.2.Conforms free s) ∧
    ∀ k t, Shape.field? k fs = some t → k ≠ Shape.anyKey → find? k es = none → t.isOptional = true

variable {free : Prop}

theorem itemsConform_iff {vs : List Value} {xs : List Shape} :
    ItemsConform free vs xs ↔ ∀ v ∈ vs, ∃ x ∈ xs, v.Conforms free x := by
  induction vs with
  | nil => simp [ItemsConform]
  | cons v vs ih => rw [ItemsConform, ih, List.forall_mem_cons]

theorem entriesConform_iff {es : List (Value × Value)} {fs : List (Text × Shape)} :
    EntriesConform free es fs ↔
      ∀ e ∈ es, ∃ k s, e.1 = .text k ∧ Shape.field? k fs = some s ∧ e.2.Conforms free s := by
  induction es with
  | nil => simp [EntriesConform]
  | cons e es ih =>
    obtain ⟨key, v⟩ := e
    rw [List.forall_mem_cons, ← ih]
    cases key <;> simp [EntriesConform]

theorem conforms_sequence_iff {fixed : Bool} {vs : List Value} {s : Shape} :
    (sequence fixed vs).Conforms free s ↔ (free ∧ .unknown ∈ s.leaves) ∨
      ∃ xs, s.items = some xs ∧ ∀ v ∈ vs, ∃ x ∈ xs, v.Conforms free x := by
  rw [Conforms]
  simp only [itemsConform_iff]

theorem conforms_mapping_iff {es : List (Value × Value)} {s : Shape} :
    (mapping es).Conforms free s ↔ (free ∧ .unknown ∈ s.leaves) ∨
      ∃ fs, s.fields = some fs ∧ Fits free es fs := by
  rw [Conforms]
  simp only [entriesConform_iff, Fits]

/-- A value is a sequence, a mapping, or one whose leaf kind decides conformance. -/
theorem conforms_cases (v : Value) :
    (∃ fixed vs, v = .sequence fixed vs) ∨ (∃ es, v = .mapping es) ∨
      ∀ (free : Prop) (s : Shape), v.Conforms free s ↔
        (free ∧ .unknown ∈ s.leaves) ∨ ∃ l, v.leaf? = some l ∧ l ∈ s.leaves := by
  cases v with
  | sequence fixed vs => exact Or.inl ⟨fixed, vs, rfl⟩
  | mapping es => exact Or.inr (Or.inl ⟨es, rfl⟩)
  | _ => exact Or.inr (Or.inr fun _ _ => Iff.rfl)

/-- Entries that fit fields fit others that have every name of them, with a shape that
admits no less and is optional where the first is, and besides only optional ones. -/
theorem Fits.transfer {free' : Prop} {es : List (Value × Value)} {fs gs : List (Text × Shape)}
    (hshared : ∀ k s, Shape.field? k fs = some s → ∃ t, Shape.field? k gs = some t ∧
      (∀ e ∈ es, e.2.Conforms free s → e.2.Conforms free' t) ∧
        (s.isOptional = true → t.isOptional = true))
    (hnew : ∀ k t, Shape.field? k fs = none → Shape.field? k gs = some t → t.isOptional = true)
    (h : Fits free es fs) : Fits free' es gs := by
  constructor
  · intro e he
    obtain ⟨k, s, hk, hs, hc⟩ := h.1 e he
    obtain ⟨t, ht, hst, -⟩ := hshared k s hs
    exact ⟨k, t, hk, ht, hst e he hc⟩
  · intro k t ht hany hmiss
    cases hs : Shape.field? k fs with
    | none => exact hnew k t hs ht
    | some s =>
      obtain ⟨t', ht', -, hopt⟩ := hshared k s hs
      obtain rfl : t' = t := Option.some.inj (ht'.symm.trans ht)
      exact hopt (h.2 k s hs hany hmiss)

/-- Entries that fit fields fit others of the same names that admit no less and are
optional where the first are. -/
theorem Fits.mono {free' : Prop} {es : List (Value × Value)} {fs gs : List (Text × Shape)}
    (hagree : ∀ k, (Shape.field? k fs = none ∧ Shape.field? k gs = none) ∨
      ∃ s t, Shape.field? k fs = some s ∧ Shape.field? k gs = some t ∧
        (∀ e ∈ es, e.2.Conforms free s → e.2.Conforms free' t) ∧
          (s.isOptional = true → t.isOptional = true))
    (h : Fits free es fs) : Fits free' es gs := by
  refine h.transfer (fun k s hs => ?_) fun k t hs ht => ?_
  · rcases hagree k with ⟨hs', -⟩ | ⟨s', t, hs', ht, hst⟩
    · simp [hs] at hs'
    · obtain rfl : s' = s := Option.some.inj (hs'.symm.trans hs)
      exact ⟨t, ht, hst⟩
  · rcases hagree k with ⟨-, ht'⟩ | ⟨s', -, hs', -⟩
    · simp [ht] at ht'
    · simp [hs] at hs'

theorem not_conforms_unknown (v : Value) : ¬ v.Conforms False .unknown := by
  rcases conforms_cases v with ⟨fixed, vs, rfl⟩ | ⟨es, rfl⟩ | hv
  · simp [conforms_sequence_iff, Shape.unknown, Shape.leaf]
  · simp [conforms_mapping_iff, Shape.unknown, Shape.leaf]
  · rw [hv]
    rintro (h | ⟨l, hl, hmem⟩)
    · exact h.1
    · obtain rfl : l = .unknown := by simpa [Shape.unknown, Shape.leaf] using hmem
      cases v <;> cases hl

theorem conforms_unknown (v : Value) : v.Conforms True .unknown := by
  have h : Leaf.unknown ∈ Shape.unknown.leaves := List.mem_singleton.2 rfl
  rcases conforms_cases v with ⟨fixed, vs, rfl⟩ | ⟨es, rfl⟩ | hv
  · exact conforms_sequence_iff.2 (Or.inl ⟨trivial, h⟩)
  · exact conforms_mapping_iff.2 (Or.inl ⟨trivial, h⟩)
  · exact (hv _ _).2 (Or.inl ⟨trivial, h⟩)

theorem isOptional_iff {s : Shape} : s.isOptional = true ↔ Leaf.undefined ∈ s.leaves :=
  decide_eq_true_iff

/-! ### Equivalent shapes -/

theorem isOptional_of_equiv {a b : Shape} (h : a.equiv b) :
    a.isOptional = true ↔ b.isOptional = true := by
  rw [isOptional_iff, isOptional_iff, Shape.mem_leaves_of_equiv h]

/-- **Equivalent shapes admit the same values.** -/
theorem conforms_congr {a b : Shape} (h : a.equiv b) {v : Value} :
    v.Conforms free a ↔ v.Conforms free b := by
  induction v using Value.induct generalizing a b with
  | step v ihs ihm =>
    have hunknown := Shape.mem_leaves_of_equiv h .unknown
    rcases conforms_cases v with ⟨fixed, vs, rfl⟩ | ⟨es, rfl⟩ | hv
    · rw [conforms_sequence_iff, conforms_sequence_iff, hunknown]
      refine or_congr_right (Shape.exists_items_congr h fun xs ys hxy hyx => ⟨?_, ?_⟩)
      · intro hall w hw
        obtain ⟨x, hx, hwx⟩ := hall w hw
        obtain ⟨y, hy, hequiv⟩ := hxy x hx
        exact ⟨y, hy, (ihs fixed vs rfl w hw hequiv).1 hwx⟩
      · intro hall w hw
        obtain ⟨y, hy, hwy⟩ := hall w hw
        obtain ⟨x, hx, hequiv⟩ := hyx y hy
        exact ⟨x, hx, (ihs fixed vs rfl w hw hequiv).2 hwy⟩
    · rw [conforms_mapping_iff, conforms_mapping_iff, hunknown]
      refine or_congr_right (Shape.exists_fields_congr h fun fs gs hfs hgs => ?_)
      have hagree := Shape.field?_of_equiv h hfs hgs
      constructor
      · refine Fits.mono fun k => (hagree k).imp_right ?_
        rintro ⟨s, t, hs, ht, hst⟩
        exact ⟨s, t, hs, ht, fun e he => (ihm es rfl e he hst).1, (isOptional_of_equiv hst).1⟩
      · refine Fits.mono fun k => (hagree k).imp And.symm ?_
        rintro ⟨s, t, hs, ht, hst⟩
        exact ⟨t, s, ht, hs, fun e he => (ihm es rfl e he hst).2, (isOptional_of_equiv hst).2⟩
    · rw [hv, hv, hunknown]
      simp only [Shape.mem_leaves_of_equiv h]

/-! ### Joins -/

/-- A further leaf kind admits no value less. -/
theorem Conforms.withLeaf {l : Leaf} {s : Shape} {v : Value} (h : v.Conforms free s) :
    v.Conforms free (s.withLeaf l) := by
  have hmem : ∀ m, m ∈ s.leaves → m ∈ (s.withLeaf l).leaves :=
    fun _ hm => Shape.mem_withLeaf.2 (Or.inl hm)
  rcases conforms_cases v with ⟨fixed, vs, rfl⟩ | ⟨es, rfl⟩ | hv
  · rw [conforms_sequence_iff] at h ⊢
    rw [Shape.withLeaf_items]
    exact h.imp_left fun h => ⟨h.1, hmem _ h.2⟩
  · rw [conforms_mapping_iff] at h ⊢
    rw [Shape.withLeaf_fields]
    exact h.imp_left fun h => ⟨h.1, hmem _ h.2⟩
  · rw [hv] at h ⊢
    exact h.imp (fun h => ⟨h.1, hmem _ h.2⟩) fun ⟨l, hl, h⟩ => ⟨l, hl, hmem l h⟩

/-- Where a field of either side is found in a join: joined, or made optional. -/
theorem field?_joinFields_of_or {fs gs : List (Text × Shape)} {k : Text} {s : Shape}
    (h : Shape.field? k fs = some s ∨ Shape.field? k gs = some s) :
    ∃ t, Shape.field? k (Shape.joinFields Shape.join fs gs) = some t ∧
      ((∃ r, t = s.join r ∨ t = r.join s) ∨ t = s.withLeaf .undefined) := by
  rw [Shape.field?_joinFields]
  rcases h with h | h
  · rw [h]
    cases Shape.field? k gs with
    | none => exact ⟨_, rfl, Or.inr rfl⟩
    | some r => exact ⟨_, rfl, Or.inl ⟨r, Or.inl rfl⟩⟩
  · rw [h]
    cases Shape.field? k fs with
    | none => exact ⟨_, rfl, Or.inr rfl⟩
    | some r => exact ⟨_, rfl, Or.inl ⟨r, Or.inr rfl⟩⟩

/-- A field that one side lacks is optional in a join. -/
theorem isOptional_of_joinFields {fs gs : List (Text × Shape)} {k : Text} {t : Shape}
    (hmiss : Shape.field? k fs = none ∨ Shape.field? k gs = none)
    (ht : Shape.field? k (Shape.joinFields Shape.join fs gs) = some t) :
    t.isOptional = true := by
  rw [Shape.field?_joinFields] at ht
  rw [isOptional_iff]
  rcases hmiss with hnone | hnone <;> rw [hnone] at ht
  · cases hg : Shape.field? k gs with
    | none => simp [hg] at ht
    | some r =>
      obtain rfl : r.withLeaf .undefined = t := by simpa [hg] using ht
      exact Shape.mem_withLeaf.2 (Or.inr rfl)
  · cases hf : Shape.field? k fs with
    | none => simp [hf] at ht
    | some r =>
      obtain rfl : r.withLeaf .undefined = t := by simpa [hf] using ht
      exact Shape.mem_withLeaf.2 (Or.inr rfl)

/-- Entries that fit the fields of one side fit those of the join, if their values pass
on to joins. -/
theorem Fits.joinFields {es : List (Value × Value)} {fs gs hs : List (Text × Shape)}
    (hjoin : ∀ e ∈ es, ∀ a b : Shape, e.2.Conforms False a ∨ e.2.Conforms False b →
      e.2.Conforms False (a.join b))
    (hsub : ∀ k s, Shape.field? k hs = some s →
      Shape.field? k fs = some s ∨ Shape.field? k gs = some s)
    (hmiss : ∀ k, Shape.field? k hs = none → Shape.field? k fs = none ∨ Shape.field? k gs = none)
    (h : Fits False es hs) : Fits False es (Shape.joinFields Shape.join fs gs) := by
  refine h.transfer (fun k s hk => ?_) fun k t hk => isOptional_of_joinFields (hmiss k hk)
  obtain ⟨t, ht, hst⟩ := field?_joinFields_of_or (hsub k s hk)
  refine ⟨t, ht, fun e he hc => ?_, fun hopt => ?_⟩
  · rcases hst with ⟨r, rfl | rfl⟩ | rfl
    · exact hjoin e he s r (Or.inl hc)
    · exact hjoin e he r s (Or.inr hc)
    · exact hc.withLeaf
  · rw [isOptional_iff] at hopt ⊢
    rcases hst with ⟨r, rfl | rfl⟩ | rfl
    · exact Shape.mem_leaves_join.2 (Or.inl hopt)
    · exact Shape.mem_leaves_join.2 (Or.inr hopt)
    · exact Shape.mem_withLeaf.2 (Or.inl hopt)

/-- **A join admits what either side admits,** in the strict reading. -/
theorem conforms_join {a b : Shape} {v : Value} (h : v.Conforms False a ∨ v.Conforms False b) :
    v.Conforms False (a.join b) := by
  induction v using Value.induct generalizing a b with
  | step v ihs ihm =>
    by_cases hequiv : a.equiv b
    · rw [Shape.join_of_equiv hequiv]
      exact h.elim id (conforms_congr hequiv).2
    rcases conforms_cases v with ⟨fixed, vs, rfl⟩ | ⟨es, rfl⟩ | hv
    · simp only [conforms_sequence_iff, false_and, false_or] at h ⊢
      rw [Shape.join_of_not_equiv hequiv]
      -- both sides have items, or the items are those of the side that has them
      have hcover : ∀ {xs ys zs : List Shape}, (∀ z ∈ zs, z ∈ xs ++ ys) →
          (∀ w ∈ vs, ∃ z ∈ zs, w.Conforms False z) →
            ∀ w ∈ vs, ∃ z ∈ Shape.joinItems Shape.join xs ys, w.Conforms False z := by
        intro xs ys zs hsub hall w hw
        obtain ⟨z, hz, hwz⟩ := hall w hw
        exact Shape.exists_mem_joinItems (fun h => conforms_congr h) (not_conforms_unknown w)
          (fun _ _ => ihs fixed vs rfl w hw) ⟨z, hsub z hz, hwz⟩
      rcases h with ⟨xs, hxs, hall⟩ | ⟨ys, hys, hall⟩
      · cases hys : b.items with
        | none => exact ⟨xs, by rw [hxs]; rfl, hall⟩
        | some ys =>
          exact ⟨_, by rw [hxs]; rfl, hcover (fun _ => List.mem_append_left ys) hall⟩
      · cases hxs : a.items with
        | none => exact ⟨ys, hys, hall⟩
        | some xs =>
          exact ⟨_, by rw [hys]; rfl, hcover (fun _ => List.mem_append_right xs) hall⟩
    · simp only [conforms_mapping_iff, false_and, false_or] at h ⊢
      rw [Shape.join_of_not_equiv hequiv]
      have hjoin : ∀ e ∈ es, ∀ a b : Shape, e.2.Conforms False a ∨ e.2.Conforms False b →
          e.2.Conforms False (a.join b) := fun e he _ _ => ihm es rfl e he
      rcases h with ⟨fs, hfs, hfits⟩ | ⟨gs, hgs, hfits⟩
      · cases hgs : b.fields with
        | none => exact ⟨fs, by rw [hfs]; rfl, hfits⟩
        | some gs =>
          exact ⟨_, by rw [hfs]; rfl, hfits.joinFields hjoin (fun _ _ => Or.inl) fun _ => Or.inl⟩
      · cases hfs : a.fields with
        | none => exact ⟨gs, hgs, hfits⟩
        | some fs =>
          exact ⟨_, by rw [hgs]; rfl, hfits.joinFields hjoin (fun _ _ => Or.inr) fun _ => Or.inr⟩
    · simp only [hv, false_and, false_or] at h ⊢
      rcases h with ⟨l, hl, hmem⟩ | ⟨l, hl, hmem⟩
      · exact ⟨l, hl, Shape.mem_leaves_join.2 (Or.inl hmem)⟩
      · exact ⟨l, hl, Shape.mem_leaves_join.2 (Or.inr hmem)⟩

end Value

namespace Shape

/-! ### No part is merely optional -/

/-- A kind besides `undefined` was observed. -/
def SolidHere (s : Shape) : Prop := ∃ k ∈ s.kinds, k ≠ .leaf .undefined

/-- Something was observed at every place, besides that it may be unfilled. -/
abbrev Solid : Shape → Prop := Everywhere SolidHere

theorem solid_leaf {l : Leaf} (h : l ≠ .undefined) : (leaf l).Solid :=
  .intro ⟨.leaf l, by simp [mem_kinds_iff, leaf], by simpa using h⟩ nofun nofun

theorem solid_join {a b : Shape} (ha : a.Solid) (hb : b.Solid) : (a.join b).Solid := by
  refine Everywhere.join ?_ (solid_leaf (by decide)).here ?_ ha hb
  · rintro s ⟨k, hk, hne⟩
    exact ⟨k, mem_kinds_withLeaf hk, hne⟩
  · intro a b ha _ _
    obtain ⟨k, hk, hne⟩ := ha.here
    exact ⟨k, mem_kinds_join.2 (Or.inl hk), hne⟩

theorem solid_form {v : Value} (h : v.IsJson) : v.form.Solid := by
  refine Everywhere.form ⟨.leaf .unknown, List.mem_singleton.2 rfl, nofun⟩ (fun w hw => ?_) h
  cases hw with
  | undefined h => exact h.elim
  | null | boolean | integer | real | text => exact ⟨_, List.mem_singleton.2 rfl, nofun⟩
  | sequence fixed h =>
    rw [Value.form_sequence fixed h]
    exact ⟨.array, List.mem_singleton.2 rfl, nofun⟩
  | mapping hn h =>
    rw [Value.form_mapping h]
    exact ⟨.object, List.mem_singleton.2 rfl, nofun⟩

/-- A place that is not merely optional stays optional in the normal form. -/
theorem isOptional_normalize {s : Shape} (h : SolidHere s) (hopt : s.isOptional = true) :
    s.normalize.isOptional = true := by
  have hd : ¬ s.isDegenerate := by
    rw [isDegenerate_iff]
    rintro (rfl | rfl)
    · cases hopt
    · obtain ⟨k, hk, hne⟩ := h
      exact hne (List.mem_singleton.1 hk)
  rw [normalize_eq hd]
  exact hopt

end Shape

namespace Value

/-! ### Samples and the inferred shape -/

theorem find?_eq_none_iff {entries : List (Text × Value)} {k : Text} :
    find? k (entries.map fun e => (.text e.1, e.2)) = none ↔ k ∉ entries.map (·.1) := by
  induction entries with
  | nil => simp [find?]
  | cons e rest ih =>
    rw [List.map_cons, List.map_cons, find?, List.mem_cons, not_or, ← ih]
    by_cases hk : e.1 = k
    · simp [hk]
    · simp [hk, Ne.symm hk]

/-- **A value conforms to its own shape.** -/
theorem conforms_form {v : Value} (h : v.IsJson) : v.Conforms False v.form := by
  induction h with
  | undefined h => exact h.elim
  | null | boolean | integer | real | text => exact Or.inr ⟨_, rfl, List.mem_singleton.2 rfl⟩
  | sequence fixed h ih =>
    rename_i vs
    rw [form_sequence fixed h, arrayOf, conforms_sequence_iff]
    refine Or.inr ⟨_, rfl, fun v hv => ?_⟩
    have hne : ¬ (vs.map form).isEmpty := by
      rw [List.isEmpty_iff, List.map_eq_nil_iff]
      exact List.ne_nil_of_mem hv
    rw [if_neg hne, Shape.exists_mem_dedupe_iff fun h => conforms_congr h]
    exact ⟨v.form, List.mem_map_of_mem hv, ih v hv⟩
  | mapping hn h ih =>
    rename_i es
    rw [form_mapping h, objectOf, conforms_mapping_iff]
    refine Or.inr ⟨_, rfl, ?_⟩
    have hnames : Shape.names (es.map fun e => (e.1, e.2.form)) = es.map (·.1) := List.map_map
    split
    · rename_i hnil
      obtain rfl : es = [] := List.map_eq_nil_iff.1 (List.isEmpty_iff.1 hnil)
      refine ⟨fun e he => absurd he List.not_mem_nil, fun k t ht hany _ => ?_⟩
      have hk := Shape.mem_names_of_field? ht
      exact absurd (List.mem_singleton.1 hk) hany
    · constructor
      · intro e' he'
        obtain ⟨e, he, rfl⟩ := List.mem_map.1 he'
        refine ⟨e.1, e.2.form, rfl, Shape.field?_of_mem (hnames ▸ hn) ?_, ih e he⟩
        exact List.mem_map.2 ⟨e, he, rfl⟩
      · intro k t ht _ hmiss
        have hk := Shape.mem_names_of_field? ht
        rw [find?_eq_none_iff, ← hnames] at hmiss
        exact absurd hk hmiss

/-- **The normal form admits what the shape admits,** and besides it everything where
only `null` was observed. -/
theorem conforms_normalize {s : Shape} (hs : s.Solid) {v : Value} (h : v.Conforms False s) :
    v.Conforms True s.normalize := by
  induction v using Value.induct generalizing s with
  | step v ihs ihm =>
    by_cases hd : s.isDegenerate
    · rw [Shape.normalize_of_isDegenerate hd]
      exact conforms_unknown v
    rw [Shape.normalize_eq hd]
    rcases conforms_cases v with ⟨fixed, vs, rfl⟩ | ⟨es, rfl⟩ | hv
    · simp only [conforms_sequence_iff, false_and, false_or] at h
      obtain ⟨xs, hxs, hall⟩ := h
      refine conforms_sequence_iff.2 (Or.inr ⟨_, by rw [hxs]; rfl, fun w hw => ?_⟩)
      obtain ⟨x, hx, hwx⟩ := hall w hw
      rw [Shape.exists_mem_dedupe_iff fun h => conforms_congr h]
      exact ⟨x.normalize, List.mem_map_of_mem hx, ihs fixed vs rfl w hw (hs.item hxs hx) hwx⟩
    · simp only [conforms_mapping_iff, false_and, false_or] at h
      obtain ⟨fs, hfs, hfits⟩ := h
      refine conforms_mapping_iff.2 (Or.inr ⟨_, by rw [hfs]; rfl, ?_⟩)
      refine hfits.mono fun k => ?_
      rw [Shape.field?_map]
      cases ht : Shape.field? k fs with
      | none => exact Or.inl ⟨rfl, rfl⟩
      | some t =>
        have hsolid : t.Solid := hs.field hfs (Shape.mem_of_field? ht)
        refine Or.inr ⟨t, t.normalize, rfl, rfl, fun e he hc => ?_, ?_⟩
        · exact ihm es rfl e he hsolid hc
        · exact Shape.isOptional_normalize hsolid.here
    · simp only [hv, false_and, false_or] at h ⊢
      exact Or.inr h

/-- What conforms to one of the joined shapes conforms to the join of all. -/
theorem conforms_joinAll {s : Shape} {rest : List Shape} {v : Value}
    (h : ∃ t ∈ s :: rest, v.Conforms False t) : v.Conforms False (Shape.joinAll s rest) := by
  obtain ⟨t, ht, hvt⟩ := Shape.exists_mem_joinRow (fun _ _ => conforms_join) h
  rwa [List.mem_singleton.1 ht] at hvt

end Value

namespace Shape

/-- **Inference is sound.**  Every nonempty list of JSON samples has an inferred shape,
and each of the samples conforms to it. -/
theorem conforms_infer {samples : List Value} (hne : samples ≠ [])
    (h : ∀ v ∈ samples, v.IsJson) :
    ∃ s, infer samples = .ok s ∧ ∀ v ∈ samples, v.Conforms True s := by
  obtain ⟨w, rest, rfl⟩ := List.exists_cons_of_ne_nil hne
  refine ⟨_, infer_eq h, fun v hv => Value.conforms_normalize ?_ (Value.conforms_joinAll ?_)⟩
  · exact joinAll_form_of_forall (fun _ _ => solid_join) fun u hu => solid_form (h u hu)
  · exact ⟨v.form, List.mem_map_of_mem (f := Value.form) hv, Value.conforms_form (h v hv)⟩

/-- Samples of different kinds, with an empty container and a null in an array. -/
def mixedSamples : List Value :=
  [.mapping [(.text "a", .sequence false [.null, .integer 1])],
    .mapping [(.text "b", .mapping [])], .sequence true []]

theorem isJson_mixedSamples : ∀ v ∈ mixedSamples, v.IsJson := by
  have hnumbers : (Value.sequence false [.null, .integer 1]).IsJson :=
    .sequence false (List.forall_mem_cons.2 ⟨.null, List.forall_mem_singleton.2 (.integer 1)⟩)
  have hempty : (Value.mapping []).IsJson := @Value.Supported.mapping _ [] List.Pairwise.nil nofun
  rw [mixedSamples, List.forall_mem_cons, List.forall_mem_cons, List.forall_mem_singleton]
  exact ⟨hnumbers.singleton "a", hempty.singleton "b", .sequence true nofun⟩

theorem conforms_infer_mixedSamples :
    mixedSamples ≠ [] ∧ (∀ v ∈ mixedSamples, v.IsJson) ∧
      ∃ s, infer mixedSamples = .ok s ∧ ∀ v ∈ mixedSamples, v.Conforms True s :=
  ⟨List.cons_ne_nil _ _, isJson_mixedSamples,
    conforms_infer (List.cons_ne_nil _ _) isJson_mixedSamples⟩

end Shape
end SampleShape
