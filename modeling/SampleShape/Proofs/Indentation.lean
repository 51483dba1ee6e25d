/-
# The level of a text is its indentation

A type can be written at any level.  Written `k` levels further in, its text is the same with
`k` more indentations at the start of every line but the first (`renderAt_add`), as long as
line breaks come from blocks only: none in the indentation, the separator, the word for the
placeholder or a name.

Putting in a padding behind every line feed (`Text.padLines`) goes through the texts of unions,
arrays and blocks part by part.  In a block every line feed is followed by the indentation of a
line or of the closing brace, which take up the padding.  A block without lines has a line feed
with nothing to indent behind it; inferred shapes have no such block (`fielded_infer`).
-/

import SampleShape.Proofs.Legibility
import SampleShape.Proofs.Observations

namespace SampleShape

namespace Text

/-- The text with a padding put in behind every line feed. -/
def padLines (pad t : Text) : Text :=
  t.flatMap fun c => if c = .ofChar '\n' then c :: pad else [c]

/-- Whether a text has no line feed. -/
def OneLine (t : Text) : Prop := CodePoint.ofChar '\n' ∉ t

instance (t : Text) : Decidable (OneLine t) := inferInstanceAs (Decidable (_ ∉ _))

variable {pad sep t : Text} {ts : List Text}

theorem padLines_append (s t : Text) : padLines pad (s ++ t) = padLines pad s ++ padLines pad t :=
  List.flatMap_append

theorem padLines_of_oneLine (h : OneLine t) : padLines pad t = t := by
  have hsame : ∀ c ∈ t, (if c = .ofChar '\n' then c :: pad else [c]) = [c] := fun c hc =>
    if_neg fun heq : c = .ofChar '\n' => h (heq ▸ hc)
  rw [padLines, List.flatMap_congr hsame]
  exact List.flatMap_singleton' t

theorem padLines_break (h : OneLine t) :
    padLines pad (t ++ [.ofChar '\n']) = t ++ [.ofChar '\n'] ++ pad := by
  rw [padLines_append, padLines_of_oneLine h]
  simp [padLines]

theorem padLines_eq_nil_iff : padLines pad t = [] ↔ t = [] := by
  cases t with
  | nil => exact iff_of_true rfl rfl
  | cons c t =>
    refine iff_of_false ?_ (List.cons_ne_nil c t)
    rw [padLines, List.flatMap_cons]
    split <;> exact List.cons_ne_nil _ _

theorem padLines_concat : padLines pad (concat ts) = concat (ts.map (padLines pad)) := by
  induction ts with
  | nil => rfl
  | cons t rest ih =>
    rw [concat, List.flatten_cons, padLines_append]
    exact congrArg _ ih

theorem padLines_join :
    padLines pad (join sep ts) = join (padLines pad sep) (ts.map (padLines pad)) := by
  induction ts with
  | nil => rfl
  | cons t rest ih =>
    cases rest with
    | nil => rfl
    | cons u rest =>
      change padLines pad (t ++ sep ++ join sep (u :: rest)) = _
      rw [padLines_append, padLines_append, ih]
      rfl

/-- A padding behind every separator and one in front is a padding in front of every text. -/
theorem append_join (h : ts ≠ []) :
    pad ++ join (sep ++ pad) ts = join sep (ts.map (pad ++ ·)) := by
  induction ts with
  | nil => exact absurd rfl h
  | cons t rest ih =>
    cases rest with
    | nil => rfl
    | cons u rest =>
      change pad ++ (t ++ (sep ++ pad) ++ join (sep ++ pad) (u :: rest)) =
        pad ++ t ++ sep ++ join sep ((u :: rest).map (pad ++ ·))
      rw [← ih (List.cons_ne_nil u rest)]
      simp only [List.append_assoc]

theorem times_add (m n : Nat) (t : Text) : times (m + n) t = times m t ++ times n t := by
  rw [times, times, times, ← List.flatten_append, List.replicate_append_replicate]

theorem oneLine_times (h : OneLine t) (n : Nat) : OneLine (times n t) := by
  intro hmem
  obtain ⟨u, hu, hmem⟩ := List.mem_flatten.1 hmem
  exact h (List.eq_of_mem_replicate hu ▸ hmem)

end Text

/-- Whether the texts of a style that go into a type have no line feed. -/
structure Style.OneLine (style : Style) : Prop where
  indent : Text.OneLine style.indent
  separator : Text.OneLine style.separator
  unknownMarker : Text.OneLine style.unknownMarker

namespace Shape

open Text (padLines OneLine)

section Padding

variable {style : Style} {pad : Text}

theorem indentation_add {level : Int} (hlevel : 0 ≤ level) (k : Nat) :
    indentation style (level + k) = Text.times k style.indent ++ indentation style level := by
  have hsum : (level + k).toNat = k + level.toNat := by omega
  rw [indentation, hsum, Text.times_add]
  rfl

theorem padLines_unionText (pieces : List Text) :
    padLines pad (unionText pieces) = unionText (pieces.map (padLines pad)) := by
  have hbar : padLines pad (" | " : Text) = " | " := Text.padLines_of_oneLine (by decide)
  have hkept : ((fun p : Text => !p.isEmpty) ∘ padLines pad) = fun p => !p.isEmpty := by
    funext p
    rw [Function.comp, Bool.eq_iff_iff]
    simp [Text.padLines_eq_nil_iff]
  rw [unionText, unionText, Text.padLines_join, hbar, List.filter_map, hkept]

theorem padLines_arrayText (items : List Text) :
    padLines pad (arrayText items) = arrayText (items.map (padLines pad)) := by
  have hplain : ∀ t : Text, OneLine t → padLines pad t = t := fun t => Text.padLines_of_oneLine
  cases items with
  | nil => exact hplain _ (by decide)
  | cons item rest =>
    cases rest with
    | nil =>
      rw [arrayText, Text.padLines_concat, List.map_cons, List.map_singleton,
        hplain "[]" (by decide)]
      rfl
    | cons next rest =>
      rw [arrayText, Text.padLines_concat, List.map_cons, List.map_cons, List.map_singleton,
        Text.padLines_join, hplain "(" (by decide), hplain ")[]" (by decide),
        hplain " | " (by decide)]
      · rfl
      · rintro _ ⟨⟩

theorem map_padLines_leafPieces (hstyle : style.OneLine) (hide : Bool) (leaves : List Leaf) :
    (leafPieces style hide leaves).map (padLines pad) = leafPieces style hide leaves := by
  rw [leafPieces, List.map_map]
  refine List.map_congr_left fun l _ => Text.padLines_of_oneLine ?_
  dsimp only
  split
  · exact hstyle.unknownMarker
  · cases l <;> decide

/-- **A block further in** has its lines further in, and its closing brace. -/
theorem padLines_blockText (hstyle : style.OneLine) {level : Int} (hlevel : 1 ≤ level) (k : Nat)
    {lines : List Text} (hne : lines ≠ []) (hpad : pad = Text.times k style.indent) :
    padLines pad (blockText style level lines) =
      blockText style (level + k) (lines.map fun l => pad ++ padLines pad l) := by
  have hopen : padLines pad ("\x7b\n" : Text) = ("\x7b\n" : Text) ++ pad :=
    Text.padLines_break (t := "\x7b") (by decide)
  have hcomma : padLines pad (",\n" : Text) = (",\n" : Text) ++ pad :=
    Text.padLines_break (t := ",") (by decide)
  have hbreak : padLines pad ("\n" : Text) = ("\n" : Text) ++ pad :=
    Text.padLines_break (t := []) (by decide)
  have hbrace : padLines pad ("\x7d" : Text) = "\x7d" := Text.padLines_of_oneLine (by decide)
  have hclosing : padLines pad (indentation style (level - 1)) = indentation style (level - 1) :=
    Text.padLines_of_oneLine (Text.oneLine_times hstyle.indent _)
  have hinner : indentation style (level + k - 1) = pad ++ indentation style (level - 1) := by
    rw [hpad, ← indentation_add (by omega)]
    congr 1
    omega
  have hlines : pad ++ Text.join ((",\n" : Text) ++ pad) (lines.map (padLines pad)) =
      Text.join ",\n" (lines.map fun l => pad ++ padLines pad l) := by
    rw [Text.append_join (by simpa using hne), List.map_map]
    rfl
  rw [blockText, blockText, Text.padLines_concat, hinner, ← hlines]
  simp only [List.map_cons, List.map_nil, Text.padLines_join, hopen, hcomma, hbreak, hbrace,
    hclosing, Text.concat, List.flatten_cons, List.flatten_nil, List.append_assoc]

/-- The lines of a block further in, if the types on them are further in. -/
theorem fieldLines_add (hstyle : style.OneLine) {level : Int} (hlevel : 1 ≤ level) (k : Nat)
    (hpad : pad = Text.times k style.indent) {fs : List (Text × Shape)}
    (hnames : ∀ f ∈ fs, OneLine f.1)
    (h : ∀ f ∈ fs, f.2.renderAt style true (level + 1 + k) =
      padLines pad (f.2.renderAt style true (level + 1))) :
    fieldLines style (level + k) fs =
      (fieldLines style level fs).map fun l => pad ++ padLines pad l := by
  rw [fieldLines_eq_map, fieldLines_eq_map, List.map_map]
  refine List.map_congr_left fun f hf => ?_
  have hindent : padLines pad (indentation style level) = indentation style level :=
    Text.padLines_of_oneLine (Text.oneLine_times hstyle.indent _)
  have hmark : padLines pad (if f.2.isOptional then ("?" : Text) else []) =
      if f.2.isOptional then ("?" : Text) else [] := by
    split <;> exact Text.padLines_of_oneLine (by decide)
  have htype : f.2.renderAt style true (level + k + 1) =
      padLines pad (f.2.renderAt style true (level + 1)) := by
    rw [← h f hf]
    congr 1
    omega
  rw [Function.comp, Text.padLines_concat, htype, indentation_add (by omega), ← hpad]
  simp only [List.map_cons, List.map_nil, hindent, hmark, Text.padLines_of_oneLine (hnames f hf),
    Text.padLines_of_oneLine hstyle.separator, Text.concat, List.flatten_cons,
    List.flatten_nil, List.append_assoc]

end Padding

/-! ### The text of a shape -/

/-- Whether an object has fields. -/
def FieldedHere (s : Shape) : Prop := s.fields ≠ some []

/-- A shape in which every object has fields. -/
abbrev Fielded : Shape → Prop := Everywhere FieldedHere

/-- **The text of a shape further in** is its text with the further indentation on every line
but the first. -/
theorem renderAt_add {style : Style} (hstyle : style.OneLine) {s : Shape} (hs : s.Fielded)
    (hn : Everywhere (NamedHere OneLine) s) (hide : Bool) {level : Int} (hlevel : 1 ≤ level)
    (k : Nat) :
    s.renderAt style hide (level + k) =
      padLines (Text.times k style.indent) (s.renderAt style hide level) := by
  induction s using Shape.induct generalizing hide level with
  | step s ihf ihx =>
    have hblock : ∀ fs, s.fields = some fs →
        blockText style (level + k) (fieldLines style (level + k) fs) =
          padLines (Text.times k style.indent)
            (blockText style level (fieldLines style level fs)) := by
      intro fs hfs
      have hlines : fieldLines style level fs ≠ [] := by
        rw [fieldLines_eq_map, Ne, List.map_eq_nil_iff]
        exact fun hnil => hs.here (hnil ▸ hfs)
      rw [padLines_blockText hstyle hlevel k hlines rfl, fieldLines_add hstyle hlevel k rfl]
      · exact fun f hf => hn.here fs hfs f.1 (List.mem_map_of_mem hf)
      · intro f hf
        exact ihf fs hfs f hf (hs.field hfs hf) (hn.field hfs hf) true (by omega)
    have harray : ∀ xs, s.items = some xs →
        arrayText (itemTexts style (level + k) xs) =
          padLines (Text.times k style.indent) (arrayText (itemTexts style level xs)) := by
      intro xs hxs
      rw [padLines_arrayText, itemTexts_eq_map, itemTexts_eq_map, List.map_map]
      refine congrArg arrayText (List.map_congr_left fun x hx => ?_)
      exact ihx xs hxs x hx (hs.item hxs hx) (hn.item hxs hx) false hlevel
    rw [renderAt_eq, renderAt_eq, memberTexts, memberTexts, padLines_unionText, List.map_append,
      List.map_append, map_padLines_leafPieces hstyle]
    cases hfs : s.fields <;> cases hxs : s.items <;> simp [hblock, harray, hfs, hxs]

/-! ### Inferred shapes -/

theorem joinFields_ne_nil {fs gs : List (Text × Shape)} (h : fs ≠ []) :
    joinFields join fs gs ≠ [] := by
  obtain ⟨f, hf⟩ := List.exists_mem_of_ne_nil fs h
  have hname : f.1 ∈ names (joinFields join fs gs) :=
    mem_names_joinFields.2 (Or.inl (List.mem_map_of_mem hf))
  intro hnil
  rw [hnil] at hname
  cases hname

theorem fielded_join {a b : Shape} (ha : a.Fielded) (hb : b.Fielded) : (a.join b).Fielded := by
  refine Everywhere.join (fun s hs => ?_) nofun ?_ ha hb
  · rw [FieldedHere, withLeaf_fields]
    exact hs
  · intro a b ha hb h heq
    rw [join_of_not_equiv h] at heq
    rcases joinContent_eq_some.1 heq with ⟨fs, gs, hfs, -, hnil⟩ | ⟨hfs, -⟩ | ⟨-, hgs⟩
    · exact joinFields_ne_nil (fun hempty => ha.here (hempty ▸ hfs)) hnil.symm
    · exact ha.here hfs
    · exact hb.here hgs

theorem fielded_normalize {s : Shape} (h : s.Fielded) : s.normalize.Fielded := by
  refine h.normalize nofun fun s hs hd heq => ?_
  rw [normalize_eq hd] at heq
  obtain ⟨fs, hfs, hnil⟩ := Option.map_eq_some_iff.1 heq
  exact hs.here (List.map_eq_nil_iff.1 hnil ▸ hfs)

theorem fielded_form {holes : Prop} {v : Value} (h : v.Supported holes) : v.form.Fielded := by
  refine Everywhere.form nofun (fun w hw => ?_) h
  cases hw with
  | undefined | null | boolean | integer | real | text => exact nofun
  | sequence fixed h =>
    rw [Value.form_sequence fixed h]
    exact nofun
  | mapping hn h =>
    rw [Value.form_mapping h, Value.objectOf]
    intro heq
    have hnil := Option.some.inj heq
    split at hnil
    · cases hnil
    · rename_i hne
      exact hne (List.isEmpty_iff.2 hnil)

/-- **Every object of an inferred shape has fields.** -/
theorem fielded_infer {holes : Prop} {samples : List Value} (hne : samples ≠ [])
    (h : ∀ v ∈ samples, v.Supported holes) :
    ∃ s, infer samples = .ok s ∧ s.Valid ∧ s.Fielded := by
  obtain ⟨v, rest, rfl⟩ := List.exists_cons_of_ne_nil hne
  refine ⟨_, infer_eq h, valid_normalize (valid_joinAll_form h), fielded_normalize ?_⟩
  exact joinAll_form_of_forall (fun _ _ => fielded_join) fun w hw => fielded_form (h w hw)

/-- **The level is pure indentation.**  Of a shape in which every object has fields, written in
a style and with names that have no line feed, the text at a level further in is the text at
any level from one on, with the further indentations put in behind every line feed.  Inferred
shapes are of this kind. -/
theorem render_add_level :
    (∀ (style : Style) (s : Shape), style.OneLine → s.Fielded →
      Everywhere (NamedHere OneLine) s → ∀ level : Int, 1 ≤ level → ∀ k : Nat,
        s.render style (level + k) =
          padLines (Text.times k style.indent) (s.render style level)) ∧
    ∀ samples : List Value, samples ≠ [] → (∀ v ∈ samples, v.Supported True) →
      ∃ s, infer samples = .ok s ∧ s.Valid ∧ s.Fielded :=
  ⟨fun _ _ hstyle hs hn _ hlevel k => renderAt_add hstyle hs hn false hlevel k,
    fun _ => fielded_infer⟩

/-- An optional field that holds arrays of objects, in an object. -/
def blocksInArray : Shape :=
  object [("a", ⟨[.undefined], none, some [object [("b", leaf .unknown)]]⟩)]

/-- A style of its own: blanks for the indentation, no blank before the colon and no word for
the placeholder. -/
def compactStyle : Style := { indent := "  ", separator := ": ", unknownMarker := "" }

theorem oneLine_compactStyle : compactStyle.OneLine := ⟨by decide, by decide, by decide⟩

theorem everywhere_blocksInArray {p : Shape → Prop} (hleaf : p (leaf .unknown))
    (hinner : p (object [("b", leaf .unknown)]))
    (hfield : p ⟨[.undefined], none, some [object [("b", leaf .unknown)]]⟩)
    (hwhole : p blocksInArray) : Everywhere p blocksInArray := by
  have hobject : Everywhere p (object [("b", leaf .unknown)]) := by
    refine .intro hinner ?_ nofun
    rintro _ ⟨rfl⟩
    exact List.forall_mem_singleton.2 (.intro hleaf nofun nofun)
  have harray : Everywhere p ⟨[.undefined], none, some [object [("b", leaf .unknown)]]⟩ := by
    refine .intro hfield nofun ?_
    rintro _ ⟨rfl⟩
    exact List.forall_mem_singleton.2 hobject
  refine .intro hwhole ?_ nofun
  rintro _ ⟨rfl⟩
  exact List.forall_mem_singleton.2 harray

theorem fielded_blocksInArray : blocksInArray.Fielded :=
  everywhere_blocksInArray nofun nofun nofun nofun

theorem named_blocksInArray : Everywhere (NamedHere OneLine) blocksInArray := by
  refine everywhere_blocksInArray nofun ?_ nofun ?_
  all_goals
    rintro _ ⟨rfl⟩
    decide

theorem render_add_level_blocksInArray :
    compactStyle.OneLine ∧ blocksInArray.Fielded ∧
    Everywhere (NamedHere OneLine) blocksInArray ∧
    blocksInArray.render compactStyle 1 =
      "\x7b\n  a?: \x7b\n    b: \n  \x7d[]\n\x7d" ∧
    blocksInArray.render compactStyle 3 =
      padLines "    " (blocksInArray.render compactStyle 1) ∧
    ∃ s, infer [.mapping [], .sequence true [.mapping []]] = .ok s ∧ s.Valid ∧ s.Fielded := by
  obtain ⟨hrender, hinfer⟩ := render_add_level
  have hnothing : (Value.mapping []).Supported True :=
    @Value.Supported.mapping _ [] List.Pairwise.nil nofun
  refine ⟨oneLine_compactStyle, fielded_blocksInArray, named_blocksInArray, by decide, ?_, ?_⟩
  · exact hrender _ _ oneLine_compactStyle fielded_blocksInArray named_blocksInArray 1 (by decide) 2
  · exact hinfer _ (List.cons_ne_nil _ _) (List.forall_mem_cons.2 ⟨hnothing,
      List.forall_mem_singleton.2 (.sequence true (List.forall_mem_singleton.2 hnothing))⟩)

end Shape
end SampleShape
