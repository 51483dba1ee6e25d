/-
# No type is written as an empty text

While the text of a shape is written, the texts of its fields and items are written inside it,
each at a level of its own, those of fields with `undefined` hidden (`Writes`).  A field of
which nothing else was observed would be left without a type.  In an inferred shape there is
none: the normal form has put the placeholder there, so every part has a kind that is shown
(`solidHere_of_normalHere`), and a shape with a kind that is shown has a text
(`renderAt_ne_nil`).

Where the samples hold no `undefined`, it comes in as the mark of a field that some sample
lacks, and in no other way: not at the top, and not among the items of an array
(`ItemsFilled`).  So it is hidden wherever it stands.
-/

import SampleShape.Proofs.Legibility
import SampleShape.Proofs.NormalShapes
import SampleShape.Proofs.Optionality

namespace SampleShape

namespace Text

theorem infix_join {sep t : Text} {ts : List Text} (h : t ∈ ts) : t <:+: join sep ts := by
  induction ts with
  | nil => cases h
  | cons u rest ih =>
    cases rest with
    | nil =>
      rw [List.mem_singleton.1 h]
      exact List.infix_rfl
    | cons v rest =>
      change t <:+: u ++ sep ++ join sep (v :: rest)
      rcases List.mem_cons.1 h with rfl | h
      · rw [List.append_assoc]
        exact (List.prefix_append t _).isInfix
      · exact (ih h).trans (List.suffix_append _ _).isInfix

theorem infix_concat {t : Text} {ts : List Text} (h : t ∈ ts) : t <:+: concat ts :=
  List.infix_of_mem_flatten h

end Text

namespace Shape

/-! ### Texts inside a text -/

/-- **The texts that are written in the course of writing a shape:** `root.Writes level hide n s`
says that the text of `s` is written, at the level `n`, in the course of writing `root` at
`level`.  Fields are written with `undefined` hidden, everything else shows it. -/
inductive Writes (root : Shape) (level : Int) : Bool → Int → Shape → Prop
  | whole : Writes root level false level root
  | field {hide : Bool} {n : Int} {s : Shape} (h : Writes root level hide n s)
      {fs : List (Text × Shape)} (hfs : s.fields = some fs) {f : Text × Shape} (hf : f ∈ fs) :
      Writes root level true (n + 1) f.2
  | item {hide : Bool} {n : Int} {s : Shape} (h : Writes root level hide n s)
      {xs : List Shape} (hxs : s.items = some xs) {x : Shape} (hx : x ∈ xs) :
      Writes root level false n x

theorem Everywhere.writes {p : Shape → Prop} {root s : Shape} {level n : Int} {hide : Bool}
    (h : Everywhere p root) (hs : root.Writes level hide n s) : Everywhere p s := by
  induction hs with
  | whole => exact h
  | field _ hfs hf ih => exact ih.field hfs hf
  | item _ hxs hx ih => exact ih.item hxs hx

theorem infix_unionText {p : Text} {pieces : List Text} (h : p ∈ pieces) :
    p <:+: unionText pieces := by
  by_cases hp : p = []
  · rw [hp]
    exact List.nil_infix
  · exact Text.infix_join (List.mem_filter.2 ⟨h, by simpa using hp⟩)

theorem infix_arrayText {t : Text} {ts : List Text} (h : t ∈ ts) : t <:+: arrayText ts := by
  unfold arrayText
  split
  · exact Text.infix_concat (List.mem_cons.2 (Or.inl (List.mem_singleton.1 h)))
  · exact (Text.infix_join h).trans
      (Text.infix_concat (List.mem_cons_of_mem _ List.mem_cons_self))

section Style

variable {style : Style} {hide : Bool} {level : Int} {s : Shape}

theorem blockText_infix_renderAt {fs : List (Text × Shape)} (hfs : s.fields = some fs) :
    blockText style level (fieldLines style level fs) <:+: s.renderAt style hide level := by
  rw [renderAt_eq, memberTexts]
  exact infix_unionText (by simp [hfs])

theorem arrayText_infix_renderAt {xs : List Shape} (hxs : s.items = some xs) :
    arrayText (itemTexts style level xs) <:+: s.renderAt style hide level := by
  rw [renderAt_eq, memberTexts]
  exact infix_unionText (by simp [hxs])

theorem field_infix_renderAt {fs : List (Text × Shape)} (hfs : s.fields = some fs)
    {f : Text × Shape} (hf : f ∈ fs) :
    f.2.renderAt style true (level + 1) <:+: s.renderAt style hide level := by
  refine List.IsInfix.trans ?_ (blockText_infix_renderAt hfs)
  rw [fieldLines_eq_map, blockText]
  refine List.IsInfix.trans ?_ (Text.infix_concat (List.mem_cons_of_mem _ List.mem_cons_self))
  refine List.IsInfix.trans ?_ (Text.infix_join (List.mem_map_of_mem hf))
  exact Text.infix_concat (by simp)

theorem item_infix_renderAt {xs : List Shape} (hxs : s.items = some xs) {x : Shape} (hx : x ∈ xs) :
    x.renderAt style false level <:+: s.renderAt style hide level := by
  refine List.IsInfix.trans ?_ (arrayText_infix_renderAt hxs)
  rw [itemTexts_eq_map]
  exact infix_arrayText (List.mem_map_of_mem hx)

/-- What is written in the course of writing a shape stands in its text. -/
theorem Writes.infix_render {root : Shape} {n : Int} (h : root.Writes level hide n s) :
    s.renderAt style hide n <:+: root.render style level := by
  induction h with
  | whole => exact List.infix_rfl
  | field _ hfs hf ih => exact (field_infix_renderAt hfs hf).trans ih
  | item _ hxs hx ih => exact (item_infix_renderAt hxs hx).trans ih

/-! ### Shapes that have a text -/

/-- A shape is written as what is shown of it. -/
theorem renderAt_shown :
    (s.shown hide).renderAt style false level = s.renderAt style hide level := by
  rw [renderAt_eq, renderAt_eq, memberTexts, memberTexts]
  simp [shown, leafPieces, List.filter_filter]

theorem mem_kinds_shown {k : Kind} (hk : k ∈ s.kinds) (hne : k ≠ .leaf .undefined) :
    k ∈ (s.shown hide).kinds := by
  rw [mem_kinds_iff] at hk ⊢
  cases k with
  | leaf l =>
    refine List.mem_filter.2 ⟨hk, ?_⟩
    simpa using Or.inr fun heq : l = .undefined => hne (heq ▸ rfl)
  | object => exact hk
  | array => exact hk

/-- **A shape of some kind has a text,** if the placeholder is written by a word. -/
theorem renderAt_ne_nil (hstyle : style.unknownMarker ≠ []) (h : s.kinds ≠ []) :
    s.renderAt style false level ≠ [] := by
  -- the member that is written for one of the kinds is no empty text
  obtain ⟨p, hp, hinfix⟩ : ∃ p : Text, p ≠ [] ∧ p <:+: s.renderAt style false level := by
    obtain ⟨k, hk⟩ := kinds_ne_nil_iff.1 h
    rw [mem_kinds_iff] at hk
    cases k with
    | leaf l =>
      refine ⟨if l = .unknown then style.unknownMarker else l.name, ?_, ?_⟩
      · split
        · exact hstyle
        · cases l <;> decide
      · rw [renderAt_eq, memberTexts]
        exact infix_unionText (by simpa [leafPieces] using Or.inl ⟨l, hk, rfl⟩)
    | object =>
      obtain ⟨fs, hfs⟩ := Option.isSome_iff_exists.1 hk
      exact ⟨_, List.cons_ne_nil _ _, blockText_infix_renderAt hfs⟩
    | array =>
      obtain ⟨xs, hxs⟩ := Option.isSome_iff_exists.1 hk
      exact ⟨_, arrayText_ne_nil _, arrayText_infix_renderAt hxs⟩
  intro hnil
  rw [hnil] at hinfix
  exact hp (List.infix_nil.1 hinfix)

end Style

/-- In a normal shape of some kind, `undefined` is not the only kind. -/
theorem solidHere_of_normalHere {s : Shape} (hs : FormedHere s) (hn : NormalHere s) :
    SolidHere s := by
  by_contra hempty
  have honly : ∀ k ∈ s.kinds, k = .leaf .undefined := by
    intro k hk
    by_contra hne
    exact hempty ⟨k, hk, hne⟩
  obtain ⟨k, hk⟩ := kinds_ne_nil_iff.1 hs.kinds
  refine hn.undefined fun m => ⟨honly m, ?_⟩
  rintro rfl
  exact honly k hk ▸ hk

/-! ### Items that are there -/

/-- A shape in which only fields may be unfilled, and perhaps the whole. -/
abbrev ItemsFilled : Shape → Prop := Everywhere (ItemsHere fun x => Leaf.undefined ∉ x.leaves)

theorem itemsFilled_join {a b : Shape} (ha : a.ItemsFilled) (hb : b.ItemsFilled) :
    (a.join b).ItemsFilled :=
  itemsHere_join (forall_mem_joinItems (fun _ _ => notMem_leaves_join) (by decide)) ha hb

theorem undefined_notMem_normalize {s : Shape} (h : Leaf.undefined ∉ s.leaves) :
    Leaf.undefined ∉ s.normalize.leaves := by
  by_cases hd : s.isDegenerate
  · rw [normalize_of_isDegenerate hd]
    decide
  · rw [normalize_eq hd]
    exact h

theorem itemsFilled_normalize {s : Shape} (h : s.ItemsFilled) : s.normalize.ItemsFilled := by
  refine itemsHere_normalize (fun x hx => ?_) h
  exact undefined_notMem_normalize hx

theorem undefined_notMem_form {v : Value} (h : v.IsJson) : Leaf.undefined ∉ v.form.leaves := by
  intro hmem
  obtain rfl := (Value.undefined_mem_kinds_form h).1 (mem_kinds_iff.2 hmem)
  cases h with
  | undefined h => exact h

theorem itemsFilled_form {v : Value} (h : v.IsJson) : v.form.ItemsFilled := by
  refine itemsHere_form (by decide) (fun w hw => ?_) h
  exact undefined_notMem_form hw

/-- **Only fields are written with `undefined` among their kinds,** if the whole shape does not
have it and no item does. -/
theorem hide_of_writes {root s : Shape} {level n : Int} {hide : Bool} (hroot : root.ItemsFilled)
    (htop : Leaf.undefined ∉ root.leaves) (hs : root.Writes level hide n s)
    (hmem : Leaf.undefined ∈ s.leaves) : hide = true := by
  cases hs with
  | whole => exact absurd hmem htop
  | field => rfl
  | item h hxs hx => exact absurd hmem ((hroot.writes h).here _ hxs _ hx)

/-! ### Inferred shapes -/

/-- Every part of a normal form has a kind besides `undefined`. -/
theorem solid_normalize {s : Shape} (hs : s.Formed) : s.normalize.Solid :=
  hs.normalize ⟨.leaf .unknown, List.mem_singleton.2 rfl, nofun⟩ fun _ hs hd =>
    solidHere_of_normalHere (hs.here.normalize hd) (normalHere_normalize hs.here hd)

theorem renderAt_ne_nil_of_solidHere {style : Style} (hstyle : style.unknownMarker ≠ [])
    {s : Shape} (hs : SolidHere s) (hide : Bool) (level : Int) :
    s.renderAt style hide level ≠ [] := by
  obtain ⟨k, hk, hne⟩ := hs
  rw [← renderAt_shown]
  exact renderAt_ne_nil hstyle (kinds_ne_nil_iff.2 ⟨k, mem_kinds_shown hk hne⟩)

/-- **No field and no item is written as an empty text.**  Samples of any kind, `undefined`
included, have a shape; in every style with a word for the placeholder, each text that is
written in the course of writing it is part of the whole and not empty.  If the samples hold
no `undefined`, it is never shown in a text, and where a shape has it, the shape is that of a
field and has another kind besides. -/
theorem infer_writes_visible {samples : List Value} (hne : samples ≠ [])
    (h : ∀ v ∈ samples, v.Supported True) :
    ∃ s, infer samples = .ok s ∧
      (∀ style : Style, style.unknownMarker ≠ [] → ∀ level hide n t, s.Writes level hide n t →
        t.renderAt style hide n ≠ [] ∧ t.renderAt style hide n <:+: s.render style level) ∧
      ((∀ v ∈ samples, v.IsJson) → ∀ level hide n t, s.Writes level hide n t →
        (∀ style, t.renderAt style hide n = (t.shown hide).renderAt style false n) ∧
        Leaf.undefined ∉ (t.shown hide).leaves ∧
        (Leaf.undefined ∈ t.leaves → hide = true ∧ ∃ k ∈ t.kinds, k ≠ .leaf .undefined)) := by
  obtain ⟨v, rest, rfl⟩ := List.exists_cons_of_ne_nil hne
  have hsolid := solid_normalize (valid_joinAll_form h).formed
  refine ⟨_, infer_eq h, fun style hstyle level hide n t ht => ⟨?_, ht.infix_render⟩, ?_⟩
  · exact renderAt_ne_nil_of_solidHere hstyle (hsolid.writes ht).here hide n
  intro hjson level hide n t ht
  have hitems := itemsFilled_normalize (joinAll_form_of_forall (fun _ _ => itemsFilled_join)
    fun w hw => itemsFilled_form (hjson w hw))
  have htop := undefined_notMem_normalize
    (joinAll_form_of_forall (P := fun s => Leaf.undefined ∉ s.leaves)
      (fun _ _ => notMem_leaves_join) fun w hw => undefined_notMem_form (hjson w hw))
  have hhide := hide_of_writes hitems htop ht
  refine ⟨fun style => renderAt_shown.symm, fun hmem => ?_, fun hmem => ?_⟩
  · obtain ⟨hmem, hshown⟩ := List.mem_filter.1 hmem
    rw [hhide hmem] at hshown
    cases hshown
  · exact ⟨hhide hmem, (hsolid.writes ht).here⟩

/-- Samples with `undefined` at the top, in a field and among items. -/
def gappySamples : List Value :=
  [.mapping [(.text "a", .undefined)], .undefined,
    .mapping [(.text "b", .sequence false [.undefined, .mapping [(.text "c", .undefined)]])]]

/-- Samples of which one lacks a field that is `null` in the other. -/
def lackingSamples : List Value :=
  [.mapping [(.text "a", .null)], .mapping [(.text "b", .integer 1)]]

theorem supported_gappySamples : ∀ v ∈ gappySamples, v.Supported True := by
  have hgap : Value.undefined.Supported True := .undefined trivial
  have hitems : (Value.sequence false [.undefined, .mapping [(.text "c", .undefined)]]).Supported
      True :=
    .sequence false (List.forall_mem_cons.2 ⟨hgap, List.forall_mem_singleton.2
      (hgap.singleton "c")⟩)
  rw [gappySamples, List.forall_mem_cons, List.forall_mem_cons, List.forall_mem_singleton]
  exact ⟨hgap.singleton "a", hgap, hitems.singleton "b"⟩

theorem supported_lackingSamples (holes : Prop) : ∀ v ∈ lackingSamples, v.Supported holes := by
  rw [lackingSamples, List.forall_mem_cons, List.forall_mem_singleton]
  exact ⟨Value.Supported.null.singleton "a", (Value.Supported.integer 1).singleton "b"⟩

theorem infer_writes_visible_gappySamples :
    (∀ v ∈ gappySamples, v.Supported True) ∧
    (∃ s, infer gappySamples = .ok s ∧ ∀ level hide n t, s.Writes level hide n t →
      t.renderAt {} hide n ≠ []) ∧
    (∀ v ∈ lackingSamples, v.IsJson) ∧
    ∃ s t, infer lackingSamples = .ok s ∧ s.Writes 1 true 2 t ∧ Leaf.undefined ∈ t.leaves ∧
      Leaf.undefined ∉ (t.shown true).leaves ∧ ∃ k ∈ t.kinds, k ≠ .leaf .undefined := by
  refine ⟨supported_gappySamples, ?_, supported_lackingSamples False, ?_⟩
  · obtain ⟨s, hs, hvisible, -⟩ := infer_writes_visible (List.cons_ne_nil _ _)
      supported_gappySamples
    exact ⟨s, hs, fun level hide n t ht => (hvisible {} (by decide) level hide n t ht).1⟩
  · obtain ⟨s, hs, -, hhidden⟩ := infer_writes_visible (List.cons_ne_nil _ _)
      (supported_lackingSamples True)
    have hfields : s.fields = some ([("a", ⟨[.null, .undefined], none, none⟩),
        ("b", ⟨[.number, .undefined], none, none⟩)] : List (Text × Shape)) := by
      obtain rfl := Except.ok.inj (hs.symm.trans (infer_eq (supported_lackingSamples True)))
      rfl
    have hwrites : s.Writes 1 true 2 ⟨[.null, .undefined], none, none⟩ :=
      .field .whole hfields List.mem_cons_self
    obtain ⟨-, hshown, hkinds⟩ := hhidden (supported_lackingSamples False) _ _ _ _ hwrites
    exact ⟨s, _, hs, hwrites, by decide, hshown, (hkinds (by decide)).2⟩

end Shape
end SampleShape
