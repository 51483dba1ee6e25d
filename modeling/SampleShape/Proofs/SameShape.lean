/-
# Values of the same shape

Two values have the same shape when they are leaves of one kind, sequences with items of
the same shapes, in any order and any number, or mappings with the same keys and values of
the same shape under each of them (`Value.SameShape`).  This is said of the values alone.

The shapes of two values are equivalent in just these cases (`equiv_form_iff`).  On the way
from a value to its shape two things could blur the difference.  Of items of one shape only
the first is kept: that does not change which items have a counterpart
(`itemsAgree_dedupe_iff`).  And an empty container holds the placeholder, in the place of an
item or under a name that may also be a key: but no value has the placeholder for a shape
(`unknown_notMem_form`), so a container that holds it was empty (`equiv_arrayOf_iff`,
`equiv_objectOf_iff`).
-/

import SampleShape.Proofs.Access
import SampleShape.Proofs.Conformance

namespace SampleShape
namespace Value

/-- Whether two values have the same shape. -/
def SameShape : Value → Value → Prop
  | .sequence _ vs, .sequence _ ws =>
    (∀ v ∈ vs, ∃ w ∈ ws, SameShape v w) ∧ ∀ w ∈ ws, ∃ v, ∃ _ : v ∈ vs, SameShape v w
  | .mapping es, .mapping fs =>
    (∀ k, k ∈ es.map (·.1) ↔ k ∈ fs.map (·.1)) ∧
      ∀ e ∈ es, ∀ f ∈ fs, e.1 = f.1 → SameShape e.2 f.2
  | v, w => ∃ l, v.leaf? = some l ∧ w.leaf? = some l
termination_by v => sizeOf v
decreasing_by
  · exact sizeOf_item_lt ‹_›
  · exact sizeOf_item_lt ‹_›
  · exact sizeOf_entry_lt ‹_›

theorem sameShape_sequence_iff {fixed fixed' : Bool} {vs ws : List Value} :
    (sequence fixed vs).SameShape (.sequence fixed' ws) ↔
      (∀ v ∈ vs, ∃ w ∈ ws, v.SameShape w) ∧ ∀ w ∈ ws, ∃ v ∈ vs, v.SameShape w := by
  rw [SameShape]
  simp only [exists_prop]

theorem sameShape_mapping_iff {es fs : List (Value × Value)} :
    (mapping es).SameShape (.mapping fs) ↔ (∀ k, k ∈ es.map (·.1) ↔ k ∈ fs.map (·.1)) ∧
      ∀ e ∈ es, ∀ f ∈ fs, e.1 = f.1 → e.2.SameShape f.2 := by
  rw [SameShape]

/-! ### Kinds -/

/-- Values of the same shape are of one kind. -/
theorem SameShape.kind?_eq {v w : Value} (h : v.SameShape w) : v.kind? = w.kind? := by
  rw [SameShape.eq_def] at h
  split at h
  · rfl
  · rfl
  · obtain ⟨l, hv, hw⟩ := h
    rw [kind?_eq_leaf_iff.2 hv, kind?_eq_leaf_iff.2 hw]

theorem sameShape_leaf_iff {v w : Value} {l : Leaf} (hv : v.leaf? = some l) :
    v.SameShape w ↔ w.leaf? = some l := by
  constructor
  · intro h
    rw [← kind?_eq_leaf_iff, ← h.kind?_eq, kind?_eq_leaf_iff, hv]
  · intro hw
    rw [SameShape.eq_def]
    split
    · cases hv
    · cases hv
    · exact ⟨l, hv, hw⟩

/-- An empty sequence has the shape of empty sequences only. -/
theorem sameShape_sequence_nil_iff {v : Value} {fixed : Bool} :
    v.SameShape (.sequence fixed []) ↔ ∃ fixed', v = .sequence fixed' [] := by
  constructor
  · intro h
    obtain ⟨fixed', vs, rfl⟩ := kind?_eq_array_iff.1 h.kind?_eq
    cases vs with
    | nil => exact ⟨fixed', rfl⟩
    | cons v rest =>
      obtain ⟨w, hw, -⟩ := (sameShape_sequence_iff.1 h).1 v List.mem_cons_self
      cases hw
  · rintro ⟨fixed', rfl⟩
    exact sameShape_sequence_iff.2 ⟨nofun, nofun⟩

/-- An empty mapping has the shape of empty mappings only. -/
theorem sameShape_mapping_nil_iff {v : Value} : v.SameShape (.mapping []) ↔ v = .mapping [] := by
  constructor
  · intro h
    obtain ⟨es, rfl⟩ := kind?_eq_object_iff.1 h.kind?_eq
    cases es with
    | nil => rfl
    | cons e rest => cases ((sameShape_mapping_iff.1 h).1 e.1).1 List.mem_cons_self
  · rintro rfl
    exact sameShape_mapping_iff.2 ⟨fun _ => Iff.rfl, nofun⟩

variable {holes : Prop}

theorem form_of_leaf? {v : Value} {l : Leaf} (h : v.leaf? = some l) : v.form = Shape.leaf l := by
  cases v <;> cases h <;> rfl

/-- Values whose shapes are equivalent are of one kind. -/
theorem kind?_eq_of_equiv {v w : Value} (hv : v.Supported holes) (hw : w.Supported holes)
    (h : v.form.equiv w.form) : v.kind? = w.kind? := by
  refine Option.ext fun k => ?_
  have hk := Shape.mem_kinds_of_equiv h k
  rwa [kinds_form hv, kinds_form hw, Option.mem_toList, Option.mem_toList] at hk

end Value

namespace Shape

/-! ### Containers that may be empty -/

theorem unknown_mem_unknown : Leaf.unknown ∈ unknown.leaves := List.mem_singleton.2 rfl

/-- Which items have a counterpart does not change when one shape of each class is kept. -/
theorem itemsAgree_dedupe_iff {xs ys : List Shape} (hxs : ∀ x ∈ xs, x.Formed)
    (hys : ∀ y ∈ ys, y.Formed) :
    ItemsAgree (some (dedupe xs)) (some (dedupe ys)) ↔ ItemsAgree (some xs) (some ys) := by
  refine ⟨fun h => ⟨fun x hx => ?_, fun y hy => ?_⟩, itemsAgree_dedupe hys⟩
  · obtain ⟨x', hx', heq⟩ := exists_mem_dedupe hx
    obtain ⟨y, hy, hxy⟩ := h.1 x' hx'
    refine ⟨y, mem_of_mem_dedupe hy, ?_⟩
    rcases heq with rfl | heq
    · exact hxy
    · exact equiv_trans (equiv_symm (hxs x hx) heq) hxy
  · obtain ⟨y', hy', heq⟩ := exists_mem_dedupe hy
    obtain ⟨x, hx, hxy⟩ := h.2 y' hy'
    refine ⟨x, mem_of_mem_dedupe hx, ?_⟩
    rcases heq with rfl | heq
    · exact hxy
    · exact equiv_trans hxy heq

/-- **Arrays of observed items are equivalent when their items agree,** also if one of them
is empty and holds the placeholder instead. -/
theorem equiv_arrayOf_iff {xs ys : List Shape}
    (hxs : ∀ x ∈ xs, x.Formed ∧ Leaf.unknown ∉ x.leaves)
    (hys : ∀ y ∈ ys, y.Formed ∧ Leaf.unknown ∉ y.leaves) :
    (Value.arrayOf xs).equiv (Value.arrayOf ys) = true ↔ ItemsAgree (some xs) (some ys) := by
  have hparts : (Value.arrayOf xs).equiv (Value.arrayOf ys) = true ↔
      ItemsAgree (Value.arrayOf xs).items (Value.arrayOf ys).items := by
    rw [equiv_iff]
    exact ⟨fun h => h.2.2, fun h => ⟨fun _ => Iff.rfl, trivial, h⟩⟩
  rw [hparts]
  cases xs with
  | nil =>
    cases ys with
    | nil => exact iff_of_true ⟨by decide, by decide⟩ ⟨nofun, nofun⟩
    | cons y ys =>
      refine iff_of_false (fun h => ?_) fun h => ?_
      · -- an item of the second array would be equivalent to the placeholder
        obtain ⟨z, hz, hequiv⟩ := h.1 unknown List.mem_cons_self
        have hz := (hys z (mem_of_mem_dedupe hz)).2
        exact hz ((mem_leaves_of_equiv hequiv _).1 unknown_mem_unknown)
      · obtain ⟨x, hx, -⟩ := h.2 y List.mem_cons_self
        cases hx
  | cons x xs =>
    cases ys with
    | nil =>
      refine iff_of_false (fun h => ?_) fun h => ?_
      · obtain ⟨z, hz, hequiv⟩ := h.2 unknown List.mem_cons_self
        have hz := (hxs z (mem_of_mem_dedupe hz)).2
        exact hz ((mem_leaves_of_equiv hequiv _).2 unknown_mem_unknown)
      · obtain ⟨y, hy, -⟩ := h.1 x List.mem_cons_self
        cases hy
    | cons y ys => exact itemsAgree_dedupe_iff (fun x hx => (hxs x hx).1) fun y hy => (hys y hy).1

/-- **Objects of observed fields are equivalent when their fields agree,** also if one of
them is empty and has the placeholder's field instead, whatever names the other has. -/
theorem equiv_objectOf_iff {fs gs : List (Text × Shape)}
    (hf : ∀ f ∈ fs, Leaf.unknown ∉ f.2.leaves) (hg : ∀ g ∈ gs, Leaf.unknown ∉ g.2.leaves) :
    (Value.objectOf fs).equiv (Value.objectOf gs) = true ↔ FieldsAgree (some fs) (some gs) := by
  have hparts : (Value.objectOf fs).equiv (Value.objectOf gs) = true ↔
      FieldsAgree (Value.objectOf fs).fields (Value.objectOf gs).fields := by
    rw [equiv_iff]
    exact ⟨fun h => h.2.1, fun h => ⟨fun _ => Iff.rfl, h, trivial⟩⟩
  rw [hparts]
  cases fs with
  | nil =>
    cases gs with
    | nil =>
      refine iff_of_true ⟨fun _ => Iff.rfl, ?_⟩ ⟨fun _ => Iff.rfl, nofun⟩
      exact List.forall_mem_singleton.2 ⟨unknown, rfl, by decide⟩
    | cons g gs =>
      refine iff_of_false (fun h => ?_) fun h => ?_
      · -- the second object may have the placeholder's name, but not its shape
        obtain ⟨t, ht, hequiv⟩ := h.2 (anyKey, unknown) List.mem_cons_self
        exact hg _ (mem_of_field? ht) ((mem_leaves_of_equiv hequiv _).1 unknown_mem_unknown)
      · cases (h.1 g.1).2 List.mem_cons_self
  | cons f fs =>
    cases gs with
    | nil =>
      refine iff_of_false (fun h => ?_) fun h => ?_
      · obtain ⟨t, ht, hequiv⟩ := h.2 f List.mem_cons_self
        obtain ⟨-, rfl⟩ := Prod.mk.inj (List.mem_singleton.1 (mem_of_field? ht))
        exact hf f List.mem_cons_self ((mem_leaves_of_equiv hequiv _).2 unknown_mem_unknown)
      · cases (h.1 f.1).1 List.mem_cons_self
    | cons g gs => exact Iff.rfl

end Shape

namespace Value

/-! ### Shapes of values -/

variable {holes : Prop}

/-- Mappings have the same keys when the same texts are keys of them. -/
theorem mem_keys_iff {es fs : List (Text × Value)} :
    (∀ k, k ∈ (es.map fun e => (text e.1, e.2)).map (·.1) ↔
        k ∈ (fs.map fun f => (text f.1, f.2)).map (·.1)) ↔
      ∀ k, k ∈ es.map (·.1) ↔ k ∈ fs.map (·.1) := by
  have hinj : Function.Injective text := fun _ _ => text.inj
  rw [keys_entries, keys_entries]
  constructor
  · intro h k
    rw [← List.mem_map_of_injective hinj, h, List.mem_map_of_injective hinj]
  · intro h k
    simp only [List.mem_map (f := text), h]

/-- The fields of two mappings agree when their keys are the same and the shapes under each
key are equivalent. -/
theorem fieldsAgree_form_iff {es fs : List (Text × Value)} (hfs : (fs.map (·.1)).Nodup) :
    Shape.FieldsAgree (some (es.map fun e => (e.1, e.2.form)))
        (some (fs.map fun f => (f.1, f.2.form))) ↔
      (∀ k, k ∈ es.map (·.1) ↔ k ∈ fs.map (·.1)) ∧
        ∀ e ∈ es, ∀ f ∈ fs, e.1 = f.1 → e.2.form.equiv f.2.form := by
  have hfield : ∀ f ∈ fs, Shape.field? f.1 (fs.map fun f => (f.1, f.2.form)) = some f.2.form :=
    fun f hf => Shape.field?_of_mem (by rwa [names_map_form]) (List.mem_map_of_mem hf)
  rw [Shape.FieldsAgree, names_map_form, names_map_form]
  refine and_congr_right fun hkeys => ⟨fun h e he f hf hkey => ?_, fun h g hg => ?_⟩
  · obtain ⟨t, ht, hequiv⟩ := h (e.1, e.2.form) (List.mem_map_of_mem he)
    rw [hkey, hfield f hf] at ht
    exact Option.some.inj ht ▸ hequiv
  · obtain ⟨e, he, rfl⟩ := List.mem_map.1 hg
    obtain ⟨f, hf, hkey⟩ := List.mem_map.1 ((hkeys e.1).1 (List.mem_map_of_mem he))
    exact ⟨f.2.form, hkey ▸ hfield f hf, h e he f hf hkey.symm⟩

/-- Of values of different kinds, neither the shapes are equivalent nor are they the same. -/
theorem equiv_form_iff_of_kind {v w : Value} (hv : v.Supported holes) (hw : w.Supported holes)
    (h : v.kind? = w.kind? → (v.form.equiv w.form = true ↔ v.SameShape w)) :
    v.form.equiv w.form = true ↔ v.SameShape w := by
  by_cases hkind : v.kind? = w.kind?
  · exact h hkind
  · exact iff_of_false (fun h => hkind (kind?_eq_of_equiv hv hw h)) fun h => hkind h.kind?_eq

/-- **Values have equivalent shapes exactly if they have the same shape.** -/
theorem equiv_form_iff {v w : Value} (hv : v.Supported holes) (hw : w.Supported holes) :
    v.form.equiv w.form = true ↔ v.SameShape w := by
  induction hv generalizing w with
  | undefined | null | boolean | integer | real | text =>
    refine equiv_form_iff_of_kind (by constructor <;> assumption) hw fun hkind => ?_
    have hleaf := kind?_eq_leaf_iff.1 hkind.symm
    rw [form_of_leaf? hleaf]
    exact iff_of_true (Shape.equiv_refl (Shape.valid_leaf _).formed)
      ((sameShape_leaf_iff rfl).2 hleaf)
  | @sequence fixed vs hvs ih =>
    refine equiv_form_iff_of_kind (.sequence fixed hvs) hw fun hkind => ?_
    obtain ⟨fixed', ws, rfl⟩ := kind?_eq_array_iff.1 hkind.symm
    have hws := supported_sequence_iff.1 hw
    have hknown : ∀ us : List Value, (∀ u ∈ us, u.Supported holes) →
        ∀ s ∈ us.map form, s.Formed ∧ Leaf.unknown ∉ s.leaves := by
      intro us hus s hs
      obtain ⟨u, hu, rfl⟩ := List.mem_map.1 hs
      exact ⟨(Shape.valid_form (hus u hu)).formed, unknown_notMem_form (hus u hu)⟩
    rw [form_sequence fixed hvs, form_sequence fixed' hws, sameShape_sequence_iff,
      Shape.equiv_arrayOf_iff (hknown vs hvs) (hknown ws hws), Shape.ItemsAgree]
    simp only [List.mem_map, forall_exists_index, and_imp, forall_apply_eq_imp_iff₂,
      exists_exists_and_eq_and]
    refine and_congr (forall₂_congr fun v hv => ?_) (forall₂_congr fun w hw => ?_)
    · exact exists_congr fun w => and_congr_right fun hw => ih v hv (hws w hw)
    · exact exists_congr fun v => and_congr_right fun hv => ih v hv (hws w hw)
  | @mapping es hn hes ih =>
    refine equiv_form_iff_of_kind (.mapping hn hes) hw fun hkind => ?_
    obtain ⟨_, rfl⟩ := kind?_eq_object_iff.1 hkind.symm
    cases hw with
    | @mapping fs hn' hfs =>
      have hknown : ∀ us : List (Text × Value), (∀ u ∈ us, u.2.Supported holes) →
          ∀ f ∈ us.map fun u => (u.1, u.2.form), Leaf.unknown ∉ f.2.leaves := by
        intro us hus f hf
        obtain ⟨u, hu, rfl⟩ := List.mem_map.1 hf
        exact unknown_notMem_form (hus u hu)
      rw [form_mapping hes, form_mapping hfs, sameShape_mapping_iff, mem_keys_iff,
        Shape.equiv_objectOf_iff (hknown es hes) (hknown fs hfs), fieldsAgree_form_iff hn']
      simp only [List.mem_map, forall_exists_index, and_imp, forall_apply_eq_imp_iff₂,
        text.injEq]
      refine and_congr_right fun _ => forall₂_congr fun e he => forall₂_congr fun f hf => ?_
      exact imp_congr_right fun _ => ih e he (hfs f hf)

/-- **Shapes tell values apart as far as their shape goes, and no further.**  The shapes of
two supported values are equivalent exactly if the values have the same shape.  So an empty
sequence or mapping is taken for nothing else, not even for a mapping with the key that
stands for the keys of an empty one. -/
theorem equiv_shape_iff {v w : Value} (hv : v.Supported True) (hw : w.Supported True)
    (path path' : Text) :
    ∃ s t, v.shape path = .ok s ∧ w.shape path' = .ok t ∧
      (s.equiv t = true ↔ v.SameShape w) ∧
      (∀ fixed, w = .sequence fixed [] → (s.equiv t = true ↔ ∃ fixed', v = .sequence fixed' [])) ∧
      (w = .mapping [] → (s.equiv t = true ↔ v = .mapping [])) := by
  have hiff := equiv_form_iff hv hw
  refine ⟨v.form, w.form, hv.shape_eq path, hw.shape_eq path', hiff, ?_, ?_⟩
  · rintro fixed rfl
    rw [hiff, sameShape_sequence_nil_iff]
  · rintro rfl
    rw [hiff, sameShape_mapping_nil_iff]

/-- A mapping with the key that stands for all, a row of items of two kinds and an empty
one. -/
def starred : Value :=
  .mapping [(.text Shape.anyKey, .sequence false [.integer 1, .text "x", .integer 2]),
    (.text "e", .sequence true [])]

/-- The same with the other key first, and each kind of item once, in the other order. -/
def starredOtherwise : Value :=
  .mapping [(.text "e", .sequence false []),
    (.text Shape.anyKey, .sequence true [.text "y", .integer 3])]

theorem supported_starred : starred.Supported True := by
  refine supported_mapping_iff.2 ⟨by simp [Shape.anyKey, Text.ofString], ?_⟩
  rw [List.forall_mem_cons, List.forall_mem_singleton]
  refine ⟨⟨⟨_, rfl⟩, .sequence false ?_⟩, ⟨_, rfl⟩, .sequence true nofun⟩
  rw [List.forall_mem_cons, List.forall_mem_cons, List.forall_mem_singleton]
  exact ⟨.integer 1, .text "x", .integer 2⟩

theorem supported_starredOtherwise : starredOtherwise.Supported True := by
  refine supported_mapping_iff.2 ⟨by simp [Shape.anyKey, Text.ofString], ?_⟩
  rw [List.forall_mem_cons, List.forall_mem_singleton]
  refine ⟨⟨⟨_, rfl⟩, .sequence false nofun⟩, ⟨_, rfl⟩, .sequence true ?_⟩
  rw [List.forall_mem_cons, List.forall_mem_singleton]
  exact ⟨.text "y", .integer 3⟩

theorem equiv_shape_iff_starred :
    starred.Supported True ∧ starredOtherwise.Supported True ∧
      ∃ s t, starred.shape "$" = .ok s ∧ starredOtherwise.shape "$" = .ok t ∧
        s.equiv t = true ∧ starred.SameShape starredOtherwise := by
  obtain ⟨s, t, hs, ht, hiff, -, -⟩ :=
    equiv_shape_iff supported_starred supported_starredOtherwise "$" "$"
  have hequiv : s.equiv t = true := by
    obtain rfl := Except.ok.inj (hs.symm.trans (supported_starred.shape_eq "$"))
    obtain rfl := Except.ok.inj (ht.symm.trans (supported_starredOtherwise.shape_eq "$"))
    decide
  exact ⟨supported_starred, supported_starredOtherwise, s, t, hs, ht, hequiv, hiff.1 hequiv⟩

end Value
end SampleShape
