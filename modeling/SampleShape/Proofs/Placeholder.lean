/-
# Where the placeholder stands

The placeholder stands in a shape for the content of an empty container.  Interpreting
values and joining their shapes keeps it to two places (`Confined`):

  * it is the only item of an array, and then stands alone,
  * it is among the kinds of the field that stands for the keys of an empty mapping.

In every other field and item, and at the top, something was observed.  Joined items lose
the placeholder because the pool has none (`unknown_notMem_pool`); joined fields keep it
only under the name that they share.

An item of an array has one kind throughout (`Unmixed`), in the joined shape as in its normal
form.  An array of one item is written without parentheses, so an item that is a union would
change the meaning of the text; none is (`length_memberTexts`).
-/

import SampleShape.Proofs.Access
import SampleShape.Proofs.Legibility

namespace SampleShape
namespace Shape

/-- Whether the placeholder is, directly below a shape, only where an empty container was
observed. -/
structure ConfinedHere (s : Shape) : Prop where
  fields : ∀ fs, s.fields = some fs → ∀ f ∈ fs, Leaf.unknown ∈ f.2.leaves → f.1 = anyKey
  items : ∀ xs, s.items = some xs → ∀ x ∈ xs, Leaf.unknown ∈ x.leaves → xs = [unknown]

/-- A shape below which the placeholder is nowhere but where an empty container was
observed. -/
abbrev Confined : Shape → Prop := Everywhere ConfinedHere

theorem confinedHere_leaf (l : Leaf) : ConfinedHere (leaf l) := ⟨nofun, nofun⟩

theorem ConfinedHere.withLeaf {l : Leaf} {s : Shape} (h : ConfinedHere s) :
    ConfinedHere (s.withLeaf l) where
  fields := by
    rw [withLeaf_fields]
    exact h.fields
  items := by
    rw [withLeaf_items]
    exact h.items

/-! ### Joins -/

variable {fs gs : List (Text × Shape)} {xs ys : List Shape}

theorem unknown_notMem_join {a b : Shape} (ha : Leaf.unknown ∉ a.leaves)
    (hb : Leaf.unknown ∉ b.leaves) : Leaf.unknown ∉ (a.join b).leaves :=
  notMem_leaves_join ha hb

/-- A joined field has the placeholder from a field of its name on either side. -/
theorem eq_anyKey_of_mem_joinFields
    (hfs : ∀ f ∈ fs, Leaf.unknown ∈ f.2.leaves → f.1 = anyKey)
    (hgs : ∀ g ∈ gs, Leaf.unknown ∈ g.2.leaves → g.1 = anyKey) :
    ∀ f ∈ joinFields join fs gs, Leaf.unknown ∈ f.2.leaves → f.1 = anyKey := by
  intro f hf hunknown
  rcases mem_joinFields hf with ⟨s, t, hs, ht, heq⟩ | ⟨s, hs, heq⟩
  · rw [heq, mem_leaves_join] at hunknown
    rcases hunknown with hunknown | hunknown
    · exact hfs (f.1, s) hs hunknown
    · exact hgs (f.1, t) ht hunknown
  · rw [heq, mem_withLeaf] at hunknown
    have hunknown := hunknown.resolve_right nofun
    rcases hs with hs | hs
    · exact hfs (f.1, s) hs hunknown
    · exact hgs (f.1, s) hs hunknown

/-- No pooled item has the placeholder: where it stands alone it is dropped. -/
theorem unknown_notMem_pool (hxs : ∀ x ∈ xs, Leaf.unknown ∈ x.leaves → xs = [unknown])
    (hys : ∀ y ∈ ys, Leaf.unknown ∈ y.leaves → ys = [unknown]) :
    ∀ s ∈ pool xs ys, Leaf.unknown ∉ s.leaves := by
  intro s hs hunknown
  have hplaceholder : s = unknown := by
    rcases mem_of_mem_pool hs with hmem | hmem
    · exact List.mem_singleton.1 (hxs s hmem hunknown ▸ hmem)
    · exact List.mem_singleton.1 (hys s hmem hunknown ▸ hmem)
  have hkept := (List.mem_filter.1 hs).2
  rw [hplaceholder] at hkept
  cases hkept

/-- **The placeholder is an item of a join only where it stands alone,** by itself or among
other kinds. -/
theorem joinItems_eq_of_unknown_mem_leaves
    (hxs : ∀ x ∈ xs, Leaf.unknown ∈ x.leaves → xs = [unknown])
    (hys : ∀ y ∈ ys, Leaf.unknown ∈ y.leaves → ys = [unknown]) :
    ∀ z ∈ joinItems join xs ys, Leaf.unknown ∈ z.leaves → joinItems join xs ys = [unknown] := by
  have hpool := unknown_notMem_pool hxs hys
  have hrow : ∀ p : Shape → Bool, ∀ z ∈ joinRow join ((pool xs ys).filter p),
      Leaf.unknown ∉ z.leaves := by
    intro p z hz
    obtain ⟨x, rest, hrow, rfl⟩ := mem_joinRow.1 hz
    have hall : ∀ s ∈ x :: rest, Leaf.unknown ∉ s.leaves := fun s hs =>
      hpool s (List.mem_filter.1 (hrow ▸ hs)).1
    rw [List.forall_mem_cons] at hall
    exact foldl_of_forall (fun _ _ => unknown_notMem_join) hall.1 hall.2
  intro z hz hunknown
  rcases mem_joinItems.1 hz with ⟨hempty, -⟩ | hz | hz | hz
  · simp [joinItems_eq, hempty]
  · exact absurd hunknown (hpool z (List.mem_filter.1 hz).1)
  · exact absurd hunknown (hrow _ z hz)
  · exact absurd hunknown (hrow _ z hz)

/-- **Joins keep the placeholder confined.** -/
theorem confined_join {a b : Shape} (ha : a.Confined) (hb : b.Confined) :
    (a.join b).Confined := by
  refine Everywhere.join (fun _ hs => hs.withLeaf) (confinedHere_leaf .unknown) ?_ ha hb
  intro a b ha hb h
  constructor
  · intro hs heq
    rw [join_of_not_equiv h] at heq
    rcases joinContent_eq_some.1 heq with ⟨fs, gs, hfs, hgs, rfl⟩ | ⟨hfs, -⟩ | ⟨-, hgs⟩
    · exact eq_anyKey_of_mem_joinFields (ha.here.fields fs hfs) (hb.here.fields gs hgs)
    · exact ha.here.fields hs hfs
    · exact hb.here.fields hs hgs
  · intro zs heq
    rw [join_of_not_equiv h] at heq
    rcases joinContent_eq_some.1 heq with ⟨xs, ys, hxs, hys, rfl⟩ | ⟨hxs, -⟩ | ⟨-, hys⟩
    · exact joinItems_eq_of_unknown_mem_leaves (ha.here.items xs hxs) (hb.here.items ys hys)
    · exact ha.here.items zs hxs
    · exact hb.here.items zs hys

/-! ### Samples -/

/-- In the shape of a sample the placeholder is the content of an empty container. -/
theorem confined_form {holes : Prop} {v : Value} (h : v.Supported holes) : v.form.Confined := by
  refine Everywhere.form (confinedHere_leaf .unknown) (fun w hw => ?_) h
  cases hw with
  | undefined | null | boolean | integer | real | text => exact confinedHere_leaf _
  | sequence fixed h =>
    rw [Value.form_sequence fixed h]
    refine ⟨nofun, ?_⟩
    rintro _ ⟨rfl⟩ x hx hunknown
    split at hx
    · rename_i hempty
      exact if_pos hempty
    · obtain ⟨v, hv, rfl⟩ := List.mem_map.1 (mem_of_mem_dedupe hx)
      exact absurd hunknown (Value.unknown_notMem_form (h v hv))
  | mapping hn h =>
    rw [Value.form_mapping h]
    refine ⟨?_, nofun⟩
    rintro _ ⟨rfl⟩ f hf hunknown
    split at hf
    · rw [List.mem_singleton.1 hf]
    · obtain ⟨e, he, rfl⟩ := List.mem_map.1 hf
      exact absurd hunknown (Value.unknown_notMem_form (h e he))

/-! ### Items in the text -/

/-- Where nothing is hidden, a shape is written as a union of as many members as it has kinds. -/
theorem length_memberTexts (style : Style) (level : Int) (s : Shape) :
    (s.memberTexts style false level).length = s.kinds.length := by
  rw [length_kinds, memberTexts, List.length_append, List.length_append]
  have hleaves : (leafPieces style false s.leaves).length = s.leaves.length := by
    simp [leafPieces]
  rw [hleaves, isObject, isArray]
  cases s.fields <;> cases s.items <;> rfl

/-- Whether an item is written as a single member of a union, so that `[]` behind it reads as
an array of that member. -/
def SingleMember (x : Shape) : Prop :=
  ∀ (style : Style) (level : Int), ∃ member,
    x.memberTexts style false level = [member] ∧
      x.renderAt style false level = unionText [member]

theorem singleMember_of_kinds {x : Shape} (h : x.kinds.length = 1) : x.SingleMember := by
  intro style level
  have hlen := length_memberTexts style level x
  rw [h] at hlen
  obtain ⟨member, hmember⟩ := List.length_eq_one_iff.1 hlen
  exact ⟨member, hmember, by rw [renderAt_eq, hmember]⟩

/-- **The form of joined samples.**  Every item of every array has one kind, and the
placeholder is nowhere but alone in an array or in the field that stands for the keys of an
empty mapping; at the top it is not.  Items of the inferred shape have one kind as well, so
an array that is written without parentheses is one of a single member. -/
theorem observed_confined {samples : List Value} (hne : samples ≠ [])
    (h : ∀ v ∈ samples, v.Supported True) :
    ∃ s, observed samples = .ok s ∧ s.Unmixed ∧ s.Confined ∧ Leaf.unknown ∉ s.leaves ∧
      infer samples = .ok s.normalize ∧ s.normalize.Unmixed ∧
      Everywhere (fun t => ∀ x, t.items = some [x] → x.SingleMember) s.normalize := by
  obtain ⟨v, rest, rfl⟩ := List.exists_cons_of_ne_nil hne
  have hunmixed := joinAll_form_of_forall (fun _ _ => unmixed_join) fun w hw =>
    unmixed_form (h w hw)
  have hconfined := joinAll_form_of_forall (fun _ _ => confined_join) fun w hw =>
    confined_form (h w hw)
  have htop : Leaf.unknown ∉ (joinAll v.form (rest.map Value.form)).leaves :=
    joinAll_form_of_forall (P := fun s => Leaf.unknown ∉ s.leaves)
      (fun _ _ => unknown_notMem_join) fun w hw => Value.unknown_notMem_form (h w hw)
  refine ⟨_, observed_eq h, hunmixed, hconfined, htop, infer_eq h, unmixed_normalize hunmixed, ?_⟩
  refine (unmixed_normalize hunmixed).mono fun t ht x hx => ?_
  exact singleMember_of_kinds (ht [x] hx x List.mem_cons_self)

/-- Samples with empty containers at the top and inside, also beside others, and one with the
key that stands for all. -/
def hollowSamples : List Value :=
  [.mapping [(.text "a", .sequence false [.sequence true [], .mapping []])], .mapping [],
    .mapping [(.text anyKey, .integer 1)], .sequence false [],
    .mapping [(.text "a", .sequence false [.text "x", .sequence false [.null]])]]

theorem supported_hollowSamples : ∀ v ∈ hollowSamples, v.Supported True := by
  have hempty : ∀ fixed, (Value.sequence fixed []).Supported True := fun fixed =>
    .sequence fixed nofun
  have hnothing : (Value.mapping []).Supported True :=
    @Value.Supported.mapping _ [] List.Pairwise.nil nofun
  have hpair : ∀ {v w : Value}, v.Supported True → w.Supported True →
      (Value.sequence false [v, w]).Supported True := fun hv hw =>
    .sequence false (List.forall_mem_cons.2 ⟨hv, List.forall_mem_singleton.2 hw⟩)
  have hnested : (Value.sequence false [.null]).Supported True :=
    .sequence false (List.forall_mem_singleton.2 .null)
  rw [hollowSamples, List.forall_mem_cons, List.forall_mem_cons, List.forall_mem_cons,
    List.forall_mem_cons, List.forall_mem_singleton]
  exact ⟨(hpair (hempty true) hnothing).singleton "a", hnothing,
    Value.Supported.singleton (.integer 1) anyKey, hempty false,
    (hpair (.text "x") hnested).singleton "a"⟩

theorem observed_confined_hollowSamples :
    hollowSamples ≠ [] ∧ (∀ v ∈ hollowSamples, v.Supported True) ∧
      ∃ s, observed hollowSamples = .ok s ∧ s.Unmixed ∧ s.Confined ∧ Leaf.unknown ∉ s.leaves ∧
        infer hollowSamples = .ok s.normalize ∧ s.normalize.Unmixed ∧
        Everywhere (fun t => ∀ x, t.items = some [x] → x.SingleMember) s.normalize :=
  ⟨List.cons_ne_nil _ _, supported_hollowSamples,
    observed_confined (List.cons_ne_nil _ _) supported_hollowSamples⟩

end Shape
end SampleShape
