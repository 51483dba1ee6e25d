/-
# Type text can be read in one way only

The default text of a shape is read back to the shape (`Shape.read`), if every item of an
array has one kind and the names of fields are plain.  An item of several kinds would
stand before `[]` without parentheses, and be read as a union whose last member is an
array; a name with a blank, a tab or a `?` at its end would be taken apart.

The text of an optional field does not say where `undefined` stood among its leaf kinds.
The reader puts it last, so what is read is the shape with `undefined` last in every field
(`Shape.settle`), and two shapes with one text differ in nothing else.

Every inferred shape has items of one kind (`unmixed_infer`): joining containers of one
sort adds no kind to them, and other items are not joined.

The proof follows the shape.  Wherever the reader is, the text of a shape adds its pieces
to those of the union there (`reads_renderAt`), which for a block and an array is
shown from what the text of their parts does.  It needs little of the reader: that it goes
from part to part, and knows a mark and a heading when it meets one (`Reading.Rules`).
-/

import SampleShape.Proofs.Reading
import SampleShape.Proofs.Validity

namespace SampleShape
namespace Shape

/-! ### The order that the text does not tell -/

/-- The shape with `undefined` behind its other leaf kinds. -/
def undefinedLast (s : Shape) : Shape :=
  { s with leaves := s.leaves.filter (· ≠ .undefined) ++ s.leaves.filter (· = .undefined) }

mutual

/-- The shape with `undefined` last among the leaf kinds of every field. -/
def settle : Shape → Shape
  | ⟨leaves, fields, items⟩ =>
    ⟨leaves,
      match fields with
        | none => none
        | some fields => some (settleFields fields),
      match items with
        | none => none
        | some items => some (settleItems items)⟩
termination_by structural s => s

/-- The fields with `undefined` last. -/
def settleFields : List (Text × Shape) → List (Text × Shape)
  | [] => []
  | (name, s) :: rest => (name, s.settle.undefinedLast) :: settleFields rest
termination_by structural fields => fields

/-- The items with `undefined` last in their fields. -/
def settleItems : List Shape → List Shape
  | [] => []
  | s :: rest => s.settle :: settleItems rest
termination_by structural items => items

end

/-- **Settling part by part.** -/
theorem settle_eq (s : Shape) :
    s.settle = ⟨s.leaves, s.fields.map fun fs => fs.map fun f => (f.1, f.2.settle.undefinedLast),
      s.items.map fun xs => xs.map settle⟩ := by
  have hfields : ∀ fs, settleFields fs = fs.map fun f => (f.1, f.2.settle.undefinedLast) :=
    fun fs => by
      induction fs with
      | nil => rfl
      | cons f rest ih => rw [settleFields, List.map_cons, ih]
  have hitems : ∀ xs, settleItems xs = xs.map settle := fun xs => by
    induction xs with
    | nil => rfl
    | cons x rest ih => rw [settleItems, List.map_cons, ih]
  obtain ⟨leaves, fields, items⟩ := s
  rw [settle.eq_def]
  cases fields <;> cases items <;> simp only [Option.map_none, Option.map_some, hfields, hitems]

theorem settle_leaves (s : Shape) : s.settle.leaves = s.leaves := by rw [settle_eq]

theorem kinds_settle (s : Shape) : s.settle.kinds = s.kinds := by
  rw [settle_eq]
  simp only [kinds, isObject, isArray, Option.isSome_map]

/-- Whether every field name is as `P` asks. -/
def NamedHere (P : Text → Prop) (s : Shape) : Prop := ∀ fs, s.fields = some fs → ∀ k ∈ names fs, P k

/-- Whether every item of an array has one kind. -/
def UnmixedHere (s : Shape) : Prop :=
  ∀ xs, s.items = some xs → ∀ x ∈ xs, x.kinds.length = 1

/-- A shape in which items have one kind at every depth. -/
abbrev Unmixed : Shape → Prop := Everywhere UnmixedHere

/-- Whether the text of a shape tells its parts: field names are plain, and an item of an
array has one kind. -/
structure LegibleHere (s : Shape) : Prop where
  names : NamedHere Mark.IsPlain s
  kinds : UnmixedHere s

/-- A shape whose text tells all its parts. -/
abbrev Legible : Shape → Prop := Everywhere LegibleHere

/-! ### Pieces -/

/-- The members of the union that a shape is, each of one kind. -/
def pieces (s : Shape) : List Shape :=
  s.leaves.map leaf ++ (s.fields.map object).toList ++ (s.items.map array).toList

/-- The shape as the text of a field shows it, or whole. -/
def shown (hide : Bool) (s : Shape) : Shape :=
  { s with leaves := s.leaves.filter fun l => !(hide && l == .undefined) }

theorem shown_false (s : Shape) : s.shown false = s := by
  obtain ⟨leaves, fields, items⟩ := s
  have hall : leaves.filter (fun l => !(false && l == .undefined)) = leaves :=
    List.filter_eq_self.2 fun _ _ => rfl
  rw [shown, hall]

theorem union_pieces (s : Shape) : Reading.union s.pieces = s := by
  obtain ⟨leaves, fields, items⟩ := s
  have hleaves : ∀ ls : List Leaf, (ls.map leaf).flatMap (·.leaves) = ls := fun ls => by
    induction ls with
    | nil => rfl
    | cons l rest ih => rw [List.map_cons, List.flatMap_cons, ih]; rfl
  have hfields : ∀ ls : List Leaf, (ls.map leaf).findSome? (·.fields) = none := fun ls => by
    simp [leaf]
  have hitems : ∀ ls : List Leaf, (ls.map leaf).findSome? (·.items) = none := fun ls => by
    simp [leaf]
  rw [Reading.union, pieces]
  cases fields <;> cases items <;>
    simp [hleaves, hfields, hitems, object, array, List.findSome?_append]

/-- A shape of one kind is its only piece. -/
theorem pieces_of_kinds {s : Shape} (h : s.kinds.length = 1) : s.pieces = [s] := by
  obtain ⟨leaves, fields, items⟩ := s
  cases fields <;> cases items <;>
    simp_all [pieces, kinds, Kind.all, isObject, isArray, leaf, object, array]
  obtain ⟨l, rfl⟩ := List.length_eq_one_iff.1 h
  exact ⟨l, rfl, rfl⟩

/-- What is read of a field is its shape with `undefined` last. -/
theorem fieldShape_pieces {s : Shape} (h : s.leaves.Nodup) :
    Reading.fieldShape s.isOptional (s.settle.shown true).pieces = s.settle.undefinedLast := by
  have hshown : s.leaves.filter (fun l => !(true && l == .undefined)) =
      s.leaves.filter (· ≠ .undefined) := by
    refine List.filter_congr fun l _ => ?_
    cases l <;> rfl
  rw [Reading.fieldShape, union_pieces, undefinedLast, shown, settle_leaves, hshown, List.filter_eq,
    h.count]
  by_cases hopt : Leaf.undefined ∈ s.leaves
  · rw [isOptional, decide_eq_true hopt, if_pos rfl, withLeaf, if_neg (by simp), if_pos hopt]
    rfl
  · rw [isOptional, decide_eq_false hopt, if_neg Bool.false_ne_true, if_neg hopt]
    simp

end Shape

namespace Reading

/-! ### Unions, arrays and blocks -/

/-- What the text of types asks of a way to read it.  `Reads t r r'` says that the text `t`
takes the reader from `r` to `r'`, `Fits level frames` that the fields of a block which is
opened now are on lines of that level, and `Tells name` that a heading with that name is
known by its text. -/
structure Rules where
  Reads : Text → Reading → Reading → Prop
  Fits : Int → List Frame → Prop
  Tells : Text → Prop
  nil (r : Reading) : Reads [] r r
  trans {t t' : Text} {r r' r'' : Reading} (h : Reads t r r') (h' : Reads t' r' r'') :
    Reads (t ++ t') r r''
  mark {t : Text} {m : Mark} (h : (t, m) ∈ Mark.table) {r r' : Reading}
    (hstep : r.step m = some r') : Reads t r r'
  close (n : Nat) {r r' : Reading} (hstep : r.step .closeBlock = some r') :
    Reads (.ofChar '\n' :: (Mark.tabs n ++ [.ofChar '\x7d'])) r r'
  heading {level : Int} {frames : List Frame} (hlevel : Fits level frames) {name : Text}
    (hname : Tells name) (optional : Bool) (outer : List Shape) (done : List (Text × Shape)) :
    Reads (Mark.tabs level.toNat ++
        (name ++ (if optional then ("?" : Text) else []) ++ Mark.separator))
      ⟨[], .block outer done :: frames⟩ ⟨[], .field name optional :: .block outer done :: frames⟩
  fits_group {level : Int} {frames : List Frame} (h : Fits level frames) (outer : List Shape) :
    Fits level (.group outer :: frames)
  fits_field {level : Int} {frames : List Frame} (h : Fits level frames) (name : Text)
    (optional : Bool) (outer : List Shape) (done : List (Text × Shape)) :
    Fits (level + 1) (.field name optional :: .block outer done :: frames)

/-- A field as it is read, if its type is read. -/
def settledField (f : Text × Shape) : Text × Shape := (f.1, f.2.settle.undefinedLast)

theorem indentation_eq (level : Int) : Shape.indentation {} level = Mark.tabs level.toNat :=
  Mark.times_tab _

/-- A line of a block. -/
def lineText (level : Int) (f : Text × Shape) : Text :=
  .concat [Shape.indentation {} level, f.1, if f.2.isOptional then "?" else [],
    ({} : Style).separator, f.2.renderAt {} true (level + 1)]

namespace Rules

variable (rules : Rules)

theorem reads_sign {t : Text} (m : Mark) (h : (t, m) ∈ Mark.signs) {r r' : Reading}
    (hstep : r.step m = some r') : rules.Reads t r r' :=
  rules.mark (List.mem_append_right _ h) hstep

/-- Texts that each add a piece add all of them, with bars in between. -/
theorem reads_join {frames : List Frame} {members : List (Text × Shape)}
    (h : ∀ p ∈ members, ∀ ps, rules.Reads p.1 ⟨ps, frames⟩ ⟨ps ++ [p.2], frames⟩)
    (ps : List Shape) :
    rules.Reads (.join " | " (members.map (·.1))) ⟨ps, frames⟩
      ⟨ps ++ members.map (·.2), frames⟩ := by
  induction members generalizing ps with
  | nil =>
    rw [List.map_nil, List.map_nil, List.append_nil]
    exact rules.nil _
  | cons p rest ih =>
    rw [List.forall_mem_cons] at h
    cases rest with
    | nil => exact h.1 ps
    | cons q rest =>
      have hbar : rules.Reads " | " ⟨ps ++ [p.2], frames⟩ ⟨ps ++ [p.2], frames⟩ :=
        rules.reads_sign .bar (by decide) rfl
      have hrest := ih h.2 (ps ++ [p.2])
      rw [List.append_assoc] at hrest
      exact rules.trans (rules.trans (h.1 ps) hbar) hrest

/-- No member of a union is left out as empty. -/
theorem reads_unionText {frames : List Frame} {members : List (Text × Shape)}
    (hne : ∀ p ∈ members, p.1 ≠ [])
    (h : ∀ p ∈ members, ∀ ps, rules.Reads p.1 ⟨ps, frames⟩ ⟨ps ++ [p.2], frames⟩)
    (ps : List Shape) :
    rules.Reads (Shape.unionText (members.map (·.1))) ⟨ps, frames⟩
      ⟨ps ++ members.map (·.2), frames⟩ := by
  have hkeep : (members.map (·.1)).filter (fun t => !t.isEmpty) = members.map (·.1) := by
    refine List.filter_eq_self.2 fun t ht => ?_
    obtain ⟨p, hp, rfl⟩ := List.mem_map.1 ht
    simpa using hne p hp
  rw [Shape.unionText, hkeep]
  exact rules.reads_join h ps

/-- The text of an array adds the array of its items, if the text of each item adds the
item. -/
theorem reads_arrayText {level : Int} {members : List (Text × Shape)}
    (h : ∀ p ∈ members, ∀ ps frames, rules.Fits level frames →
      rules.Reads p.1 ⟨ps, frames⟩ ⟨ps ++ [p.2], frames⟩)
    (ps : List Shape) {frames : List Frame} (hlevel : rules.Fits level frames) :
    rules.Reads (Shape.arrayText (members.map (·.1))) ⟨ps, frames⟩
      ⟨ps ++ [.array (members.map (·.2))], frames⟩ := by
  have hgroup : rules.Reads (.concat ["(", .join " | " (members.map (·.1)), ")[]"]) ⟨ps, frames⟩
      ⟨ps ++ [.array (members.map (·.2))], frames⟩ := by
    have hopen : rules.Reads "(" ⟨ps, frames⟩ ⟨[], .group ps :: frames⟩ :=
      rules.reads_sign .openGroup (by decide) rfl
    have hitems : rules.Reads (.join " | " (members.map (·.1))) ⟨[], .group ps :: frames⟩
        ⟨members.map (·.2), .group ps :: frames⟩ :=
      rules.reads_join (fun p hp qs => h p hp qs _ (rules.fits_group hlevel ps)) []
    have hclose : rules.Reads ")[]" ⟨members.map (·.2), .group ps :: frames⟩
        ⟨ps ++ [.array (members.map (·.2))], frames⟩ :=
      rules.reads_sign .closeGroup (by decide) rfl
    have hall := rules.trans hopen (rules.trans hitems hclose)
    simpa [Text.concat] using hall
  match members, h, hgroup with
  | [], _, hgroup => exact hgroup
  | [p], h, _ =>
    have hitem := h p List.mem_cons_self ps frames hlevel
    have hbrackets : rules.Reads "[]" ⟨ps ++ [p.2], frames⟩ ⟨ps ++ [.array [p.2]], frames⟩ := by
      refine rules.reads_sign .brackets (by decide) ?_
      rw [step, List.getLast?_concat, List.dropLast_concat]
      rfl
    have hall := rules.trans hitem hbrackets
    simpa [Shape.arrayText, Text.concat] using hall
  | p :: q :: rest, _, hgroup => exact hgroup

/-- The text of a line opens its field and reads the type. -/
theorem reads_lineText {level : Int} {frames : List Frame} (hlevel : rules.Fits level frames)
    {f : Text × Shape} (hname : rules.Tells f.1)
    (h : ∀ frames, rules.Fits (level + 1) frames →
      rules.Reads (f.2.renderAt {} true (level + 1)) ⟨[], frames⟩
        ⟨(f.2.settle.shown true).pieces, frames⟩)
    (outer : List Shape) (done : List (Text × Shape)) :
    rules.Reads (lineText level f) ⟨[], .block outer done :: frames⟩
      ⟨(f.2.settle.shown true).pieces,
        .field f.1 f.2.isOptional :: .block outer done :: frames⟩ := by
  have hheading := rules.heading hlevel hname f.2.isOptional outer done
  have htype := h _ (rules.fits_field hlevel f.1 f.2.isOptional outer done)
  have htext : lineText level f = Mark.tabs level.toNat ++
      (f.1 ++ (if f.2.isOptional then ("?" : Text) else []) ++ Mark.separator) ++
        f.2.renderAt {} true (level + 1) := by
    simp only [lineText, Text.concat, indentation_eq, List.flatten_cons, List.flatten_nil,
      List.append_nil, List.append_assoc]
    rfl
  rw [htext]
  exact rules.trans hheading htype

/-- **The lines of a block** are read as its fields, up to the brace. -/
theorem reads_lines {level : Int} {frames : List Frame} (hlevel : rules.Fits level frames)
    {outer : List Shape} {f : Text × Shape} {rest : List (Text × Shape)}
    (hname : ∀ g ∈ f :: rest, rules.Tells g.1) (hleaves : ∀ g ∈ f :: rest, g.2.leaves.Nodup)
    (h : ∀ g ∈ f :: rest, ∀ frames, rules.Fits (level + 1) frames →
      rules.Reads (g.2.renderAt {} true (level + 1)) ⟨[], frames⟩
        ⟨(g.2.settle.shown true).pieces, frames⟩) (n : Nat) (done : List (Text × Shape)) :
    rules.Reads (Text.join ",\n" ((f :: rest).map (lineText level)) ++
        (.ofChar '\n' :: (Mark.tabs n ++ [.ofChar '\x7d'])))
      ⟨[], .block outer done :: frames⟩
      ⟨outer ++ [.object (done ++ (f :: rest).map settledField)], frames⟩ := by
  induction rest generalizing f done with
  | nil =>
    rw [List.forall_mem_singleton] at hname hleaves h
    have hclose := rules.close n (r := ⟨(f.2.settle.shown true).pieces,
      .field f.1 f.2.isOptional :: .block outer done :: frames⟩) rfl
    rw [Shape.fieldShape_pieces hleaves] at hclose
    exact rules.trans (rules.reads_lineText hlevel hname h outer done) hclose
  | cons g rest ih =>
    rw [List.forall_mem_cons] at hname hleaves h
    have hline := rules.reads_lineText hlevel hname.1 h.1 outer done
    have hcomma : rules.Reads ",\n" ⟨(f.2.settle.shown true).pieces,
        .field f.1 f.2.isOptional :: .block outer done :: frames⟩
        ⟨[], .block outer (done ++ [settledField f]) :: frames⟩ := by
      refine rules.reads_sign .comma (by decide) ?_
      rw [step, Shape.fieldShape_pieces hleaves.1]
      rfl
    have hrest := ih hname.2 hleaves.2 h.2 (done ++ [settledField f])
    have hall := rules.trans (rules.trans hline hcomma) hrest
    rw [← List.append_assoc, List.append_assoc done] at hall
    exact hall

/-- The text of a block adds the object of its fields, if the types of the fields are
read. -/
theorem reads_blockText {level : Int} {frames : List Frame} (hlevel : rules.Fits level frames)
    {fs : List (Text × Shape)} (hname : ∀ g ∈ fs, rules.Tells g.1)
    (hleaves : ∀ g ∈ fs, g.2.leaves.Nodup)
    (h : ∀ g ∈ fs, ∀ frames, rules.Fits (level + 1) frames →
      rules.Reads (g.2.renderAt {} true (level + 1)) ⟨[], frames⟩
        ⟨(g.2.settle.shown true).pieces, frames⟩) (ps : List Shape) :
    rules.Reads (Shape.blockText {} level (Shape.fieldLines {} level fs)) ⟨ps, frames⟩
      ⟨ps ++ [.object (fs.map settledField)], frames⟩ := by
  have hopen : rules.Reads "\x7b\n" ⟨ps, frames⟩ ⟨[], .block ps [] :: frames⟩ :=
    rules.reads_sign .openBlock (by decide) rfl
  have htext : Shape.blockText {} level (Shape.fieldLines {} level fs) =
      ("\x7b\n" : Text) ++ (Text.join ",\n" (fs.map (lineText level)) ++
        (.ofChar '\n' :: (Mark.tabs (level - 1).toNat ++ [.ofChar '\x7d']))) := by
    rw [Shape.blockText, Shape.fieldLines_eq_map]
    change Text.concat ["\x7b\n", Text.join ",\n" (fs.map (lineText level)), "\n",
      Shape.indentation {} (level - 1), "\x7d"] = _
    rw [Text.concat, indentation_eq]
    simp only [List.flatten_cons, List.flatten_nil, List.append_nil]
    rfl
  rw [htext]
  refine rules.trans hopen ?_
  cases fs with
  | nil => exact rules.close _ rfl
  | cons f rest => exact rules.reads_lines hlevel hname hleaves h _ []

end Rules
end Reading

namespace Shape

/-! ### The text of a shape -/

/-- The texts of the members of the union that a shape is written as. -/
def memberTexts (style : Style) (hide : Bool) (level : Int) (s : Shape) : List Text :=
  leafPieces style hide s.leaves ++
    (s.fields.map fun fs => blockText style level (fieldLines style level fs)).toList ++
    (s.items.map fun xs => arrayText (itemTexts style level xs)).toList

/-- **A shape is written as the union of its members.** -/
theorem renderAt_eq (style : Style) (hide : Bool) (level : Int) (s : Shape) :
    s.renderAt style hide level = unionText (s.memberTexts style hide level) := by
  obtain ⟨leaves, fields, items⟩ := s
  rw [renderAt.eq_def]
  cases fields <;> cases items <;> rfl

/-- In the default style every leaf kind is written by its name. -/
theorem leafPieces_eq (hide : Bool) (leaves : List Leaf) :
    leafPieces {} hide leaves =
      (leaves.filter fun l => !(hide && l == .undefined)).map Leaf.name := by
  rw [leafPieces]
  refine List.map_congr_left fun l _ => ?_
  by_cases hl : l = .unknown
  · rw [if_pos hl, hl]
    rfl
  · rw [if_neg hl]

/-- The members of the union that the text of a shape is, each with the piece that it
adds. -/
def members (hide : Bool) (level : Int) (s : Shape) : List (Text × Shape) :=
  (s.leaves.filter fun l => !(hide && l == .undefined)).map (fun l => (l.name, leaf l)) ++
    (s.fields.map fun fs => (blockText {} level (fieldLines {} level fs),
      object (fs.map Reading.settledField))).toList ++
    (s.items.map fun xs => (arrayText (itemTexts {} level xs), array (xs.map settle))).toList

theorem map_fst_members (hide : Bool) (level : Int) (s : Shape) :
    (s.members hide level).map (·.1) = s.memberTexts {} hide level := by
  rw [memberTexts, leafPieces_eq, members, List.map_append, List.map_append, List.map_map]
  cases s.fields <;> cases s.items <;> rfl

theorem map_snd_members (hide : Bool) (level : Int) (s : Shape) :
    (s.members hide level).map (·.2) = (s.settle.shown hide).pieces := by
  rw [settle_eq, shown, pieces, members, List.map_append, List.map_append, List.map_map]
  cases s.fields <;> cases s.items <;> rfl

theorem mem_members {hide : Bool} {level : Int} {s : Shape} {p : Text × Shape} :
    p ∈ s.members hide level →
      (∃ l, p = (l.name, leaf l)) ∨
      (∃ fs, s.fields = some fs ∧ p = (blockText {} level (fieldLines {} level fs),
        object (fs.map Reading.settledField))) ∨
      ∃ xs, s.items = some xs ∧ p = (arrayText (itemTexts {} level xs), array (xs.map settle)) := by
  simp only [members, List.mem_append, List.mem_map, Option.mem_toList,
    Option.map_eq_some_iff]
  rintro ((⟨l, -, rfl⟩ | ⟨fs, hfs, rfl⟩) | ⟨xs, hxs, rfl⟩)
  · exact Or.inl ⟨l, rfl⟩
  · exact Or.inr (Or.inl ⟨fs, hfs, rfl⟩)
  · exact Or.inr (Or.inr ⟨xs, hxs, rfl⟩)

theorem arrayText_ne_nil (texts : List Text) : arrayText texts ≠ [] := by
  intro h
  have hlen := congrArg List.length h
  unfold arrayText at hlen
  split at hlen <;> simp [Text.concat, Text.ofString] at hlen

/-- **The text of a shape adds its pieces,** wherever the reader is. -/
theorem reads_renderAt (rules : Reading.Rules) {s : Shape} (hs : s.Formed)
    (hn : Everywhere (NamedHere rules.Tells) s) (hu : s.Unmixed) (hide : Bool) {level : Int}
    (ps : List Shape) {frames : List Frame} (hlevel : rules.Fits level frames) :
    rules.Reads (s.renderAt {} hide level) ⟨ps, frames⟩
      ⟨ps ++ (s.settle.shown hide).pieces, frames⟩ := by
  induction s using Shape.induct generalizing hide level ps frames with
  | step s ihf ihx =>
    rw [renderAt_eq, ← map_fst_members, ← map_snd_members hide level]
    refine rules.reads_unionText (fun p hp => ?_) (fun p hp ps => ?_) ps
    · rcases mem_members hp with ⟨l, rfl⟩ | ⟨fs, -, rfl⟩ | ⟨xs, -, rfl⟩
      · cases l <;> decide
      · exact List.cons_ne_nil _ _
      · exact arrayText_ne_nil _
    · rcases mem_members hp with ⟨l, rfl⟩ | ⟨fs, hfs, rfl⟩ | ⟨xs, hxs, rfl⟩
      · exact rules.mark (Mark.mem_table_word l) rfl
      · refine rules.reads_blockText hlevel ?_ ?_ ?_ ps
        · exact fun g hg => hn.here fs hfs g.1 (List.mem_map_of_mem hg)
        · exact fun g hg => (hs.field hfs hg).here.leaves
        · intro g hg frames hlevel
          exact ihf fs hfs g hg (hs.field hfs hg) (hn.field hfs hg) (hu.field hfs hg) true []
            hlevel
      · rw [itemTexts_eq_map]
        have hitem : ∀ p ∈ xs.map (fun x => (x.renderAt {} false level, x.settle)), ∀ ps frames,
            rules.Fits level frames → rules.Reads p.1 ⟨ps, frames⟩ ⟨ps ++ [p.2], frames⟩ := by
          intro p hp ps frames hlevel
          obtain ⟨x, hx, rfl⟩ := List.mem_map.1 hp
          have hone : x.settle.pieces = [x.settle] :=
            pieces_of_kinds ((kinds_settle x).symm ▸ hu.here xs hxs x hx)
          have hreads := ihx xs hxs x hx (hs.item hxs hx) (hn.item hxs hx) (hu.item hxs hx) false
            ps hlevel
          rwa [shown_false, hone] at hreads
        have hitems := rules.reads_arrayText hitem ps hlevel
        simpa only [List.map_map, Function.comp_def] using hitems

/-- The reader that takes a heading for what stands between tabs and blanks. -/
def plainRules : Reading.Rules where
  Reads := Reading.Steps
  Fits level _ := 1 ≤ level
  Tells := Mark.IsPlain
  nil := Reading.steps_nil
  trans := Reading.Steps.trans
  mark h _ _ hstep := Reading.steps_of_spells (Mark.spells_of_mem_table _ h) hstep
  close n _ _ hstep := Reading.steps_of_spells (Mark.spells_closeBlock n) hstep
  heading := by
    intro level frames hlevel name hname optional outer done
    obtain ⟨n, hn⟩ : ∃ n, level.toNat = n + 1 := ⟨level.toNat - 1, by omega⟩
    rw [hn]
    exact Reading.steps_of_spells (Mark.spells_heading n hname optional) rfl
  fits_group h _ := h
  fits_field h _ _ _ _ := by omega

/-- The default text of a shape is read as the shape, with `undefined` last in its
fields. -/
theorem read_render {s : Shape} (hs : s.Formed) (hl : s.Legible) {level : Int}
    (hlevel : 1 ≤ level) : read (s.render {} level) = some s.settle := by
  have hfits : plainRules.Fits level [] := hlevel
  have hsteps := reads_renderAt plainRules hs (hl.mono fun _ h => h.names)
    (hl.mono fun _ h => h.kinds) false [] hfits []
  rw [List.append_nil, List.nil_append, shown_false] at hsteps
  rw [read, render, hsteps]
  exact congrArg some (union_pieces s.settle)

/-! ### Inferred shapes have items of one kind -/

theorem length_kinds (s : Shape) :
    s.kinds.length = s.leaves.length + s.isObject.toNat + s.isArray.toNat := by
  rw [kinds, Kind.all]
  cases s.isObject <;> cases s.isArray <;> simp

/-- Joining containers of one kind adds no kind: they have no leaf kinds, and nothing of
the other container. -/
theorem length_kinds_join {c : Container} {a b : Shape} (hca : isContainer c a)
    (hcb : isContainer c b) (ha : a.kinds.length = 1) (hb : b.kinds.length = 1) :
    (a.join b).kinds.length = 1 := by
  have hpure : ∀ {s : Shape}, isContainer c s → s.kinds.length = 1 →
      s.leaves = [] ∧ (s.isObject.toNat + s.isArray.toNat = 1) := by
    intro s hc hs
    rw [length_kinds] at hs
    have hpos : 1 ≤ s.isObject.toNat + s.isArray.toNat := by
      cases c <;> simp_all [isContainer]
    exact ⟨List.length_eq_zero_iff.1 (by omega), by omega⟩
  obtain ⟨hla, hka⟩ := hpure hca ha
  obtain ⟨hlb, hkb⟩ := hpure hcb hb
  have hleaves : (a.join b).leaves = [] := by
    refine List.eq_nil_iff_forall_not_mem.2 fun l hl => ?_
    rw [mem_leaves_join, hla, hlb] at hl
    simp at hl
  rw [length_kinds, hleaves, isObject_join, isArray_join]
  cases c <;> simp_all [isContainer]

/-- The items of a join have one kind if those of both sides have. -/
theorem length_kinds_of_mem_joinItems {xs ys : List Shape} (hx : ∀ x ∈ xs, x.kinds.length = 1)
    (hy : ∀ y ∈ ys, y.kinds.length = 1) : ∀ z ∈ joinItems join xs ys, z.kinds.length = 1 := by
  have hpool : ∀ s ∈ pool xs ys, s.kinds.length = 1 := fun s hs =>
    (mem_of_mem_pool hs).elim (hx s) (hy s)
  -- a row holds one container only, so its joins add no kind
  have hrow : ∀ c, ∀ z ∈ joinRow join ((pool xs ys).filter (isContainer c)),
      z.kinds.length = 1 := by
    intro c z hz
    obtain ⟨x, rest, hrow, rfl⟩ := mem_joinRow.1 hz
    have hall : ∀ s ∈ x :: rest, isContainer c s ∧ s.kinds.length = 1 := by
      intro s hs
      obtain ⟨hs, hc⟩ := List.mem_filter.1 (hrow ▸ hs)
      exact ⟨hc, hpool s hs⟩
    rw [List.forall_mem_cons] at hall
    have hjoined : isContainer c (rest.foldl join x) ∧ (rest.foldl join x).kinds.length = 1 :=
      foldl_of_forall (P := fun s => isContainer c s ∧ s.kinds.length = 1)
        (fun _ _ ha hb => ⟨isContainer_join ha.1 hb.1, length_kinds_join ha.1 hb.1 ha.2 hb.2⟩)
        hall.1 hall.2
    exact hjoined.2
  intro z hz
  rcases mem_joinItems.1 hz with ⟨-, rfl⟩ | hz | hz | hz
  · rfl
  · exact hpool z (List.mem_filter.1 hz).1
  · exact hrow .object z hz
  · exact hrow .array z hz

theorem unmixed_join {a b : Shape} (ha : a.Unmixed) (hb : b.Unmixed) : (a.join b).Unmixed :=
  itemsHere_join length_kinds_of_mem_joinItems ha hb

theorem unmixed_normalize {s : Shape} (h : s.Unmixed) : s.normalize.Unmixed := by
  refine itemsHere_normalize (fun x hx => ?_) h
  by_cases hd : x.isDegenerate
  · rw [normalize_of_isDegenerate hd]
    rfl
  · rw [kinds_normalize hd]
    exact hx

/-- The shape of a sample has one kind. -/
theorem length_kinds_form {holes : Prop} {v : Value} (h : v.Supported holes) :
    v.form.kinds.length = 1 := by
  cases h with
  | undefined | null | boolean | integer | real | text => rfl
  | sequence fixed h =>
    rw [Value.form_sequence fixed h]
    rfl
  | mapping hn h =>
    rw [Value.form_mapping h]
    rfl

theorem unmixed_form {holes : Prop} {v : Value} (h : v.Supported holes) : v.form.Unmixed :=
  itemsHere_form (P := fun x => x.kinds.length = 1) rfl (fun _ => length_kinds_form) h

/-- **Inferred shapes are unmixed,** and valid. -/
theorem unmixed_infer {holes : Prop} {samples : List Value} (hne : samples ≠ [])
    (h : ∀ v ∈ samples, v.Supported holes) :
    ∃ s, infer samples = .ok s ∧ s.Valid ∧ s.Unmixed := by
  obtain ⟨v, rest, rfl⟩ := List.exists_cons_of_ne_nil hne
  refine ⟨_, infer_eq h, valid_normalize ?_, unmixed_normalize ?_⟩
  · exact valid_joinAll_form h
  · exact joinAll_form_of_forall (fun _ _ => unmixed_join) fun w hw => unmixed_form (h w hw)

/-- **Type text is uniquely readable.**  The default text of a valid, legible shape is
read as that shape, so valid and legible shapes of one text are the same, apart from where
`undefined` stands among the leaf kinds of fields.  Of the two things that make a shape
legible, items of one kind are there in every inferred shape. -/
theorem render_uniquely_readable :
    (∀ s t : Shape, s.Valid → t.Valid → s.Legible → t.Legible → ∀ level : Int, 1 ≤ level →
      read (s.render {} level) = some s.settle ∧
        (s.render {} level = t.render {} level → s.settle = t.settle)) ∧
    ∀ samples : List Value, samples ≠ [] → (∀ v ∈ samples, v.IsJson) →
      ∃ s, infer samples = .ok s ∧ s.Valid ∧ s.Unmixed := by
  refine ⟨fun s t hs ht hls hlt level hlevel => ?_, fun _ => unmixed_infer⟩
  have hread := read_render hs.formed hls hlevel
  refine ⟨hread, fun htext => ?_⟩
  rw [htext, read_render ht.formed hlt hlevel] at hread
  exact (Option.some.inj hread).symm

/-- An object with a field that may be unfilled, its leaf kinds in a given order, and a
field that is an array of different items. -/
def twoOrders (ls : List Leaf) : Shape :=
  .object [("a", ⟨ls, none, none⟩), ("b", .array [leaf .string, .array [leaf .unknown]])]

theorem valid_twoOrders (ls : List Leaf) (hls : ls.Nodup) (hne : ls ≠ []) :
    (twoOrders ls).Valid := by
  have hkinds : kinds ⟨ls, none, none⟩ ≠ [] := by
    obtain ⟨l, rest, rfl⟩ := List.exists_cons_of_ne_nil hne
    exact List.cons_ne_nil _ _
  have ha : Valid ⟨ls, none, none⟩ := .intro ⟨⟨hls, nofun, hkinds⟩, nofun, nofun⟩ nofun nofun
  have hb : (array [leaf .unknown]).Valid :=
    valid_array (List.cons_ne_nil _ _) (List.pairwise_singleton _ _)
      (List.forall_mem_singleton.2 (valid_leaf .unknown))
  have hb' : (array [leaf .string, array [leaf .unknown]]).Valid :=
    valid_array (List.cons_ne_nil _ _) (by decide)
      (List.forall_mem_cons.2 ⟨valid_leaf .string, List.forall_mem_singleton.2 hb⟩)
  have hnames : List.Nodup (["a", "b"] : List Text) := by decide
  exact valid_object hnames (List.forall_mem_cons.2 ⟨ha, List.forall_mem_singleton.2 hb'⟩)

theorem legible_twoOrders (ls : List Leaf) : (twoOrders ls).Legible := by
  have hleaf : ∀ ls, Legible ⟨ls, none, none⟩ := fun ls => .intro ⟨nofun, nofun⟩ nofun nofun
  have harray : ∀ xs : List Shape, (∀ x ∈ xs, x.kinds.length = 1) → (∀ x ∈ xs, x.Legible) →
      (array xs).Legible := by
    intro xs hkinds hxs
    refine .intro ⟨nofun, ?_⟩ nofun ?_
    all_goals rintro _ ⟨rfl⟩
    · exact hkinds
    · exact hxs
  have hb : (array [leaf .unknown]).Legible :=
    harray _ (by decide) (List.forall_mem_singleton.2 (hleaf _))
  have hb' : (array [leaf .string, array [leaf .unknown]]).Legible :=
    harray _ (by decide) (List.forall_mem_cons.2 ⟨hleaf _, List.forall_mem_singleton.2 hb⟩)
  have hplain : ∀ k ∈ (["a", "b"] : List Text), Mark.IsPlain k := by decide
  refine .intro ⟨?_, nofun⟩ ?_ nofun
  all_goals rintro _ ⟨rfl⟩
  · exact hplain
  · exact List.forall_mem_cons.2 ⟨hleaf ls, List.forall_mem_singleton.2 hb'⟩

/-- A sequence of a number, a text and a sequence. -/
def threeKinds : Value := .sequence false [.integer 1, .text "x", .sequence true [.null]]

theorem isJson_threeKinds : threeKinds.IsJson := by
  have hnested : (Value.sequence true [.null]).IsJson :=
    .sequence true (List.forall_mem_singleton.2 .null)
  exact .sequence false (List.forall_mem_cons.2 ⟨.integer 1, List.forall_mem_cons.2
    ⟨.text "x", List.forall_mem_singleton.2 hnested⟩⟩)

theorem render_uniquely_readable_twoOrders :
    (twoOrders [.undefined, .number]).Valid ∧ (twoOrders [.number, .undefined]).Valid ∧
    (twoOrders [.undefined, .number]).Legible ∧ (twoOrders [.number, .undefined]).Legible ∧
    (read ((twoOrders [.undefined, .number]).render {} 1) =
        some (twoOrders [.undefined, .number]).settle ∧
      ((twoOrders [.undefined, .number]).render {} 1 =
          (twoOrders [.number, .undefined]).render {} 1 →
        (twoOrders [.undefined, .number]).settle = (twoOrders [.number, .undefined]).settle)) ∧
    threeKinds.IsJson ∧ ∃ s, infer [threeKinds] = .ok s ∧ s.Valid ∧ s.Unmixed := by
  have hs := valid_twoOrders [.undefined, .number] (by decide) (List.cons_ne_nil _ _)
  have ht := valid_twoOrders [.number, .undefined] (by decide) (List.cons_ne_nil _ _)
  obtain ⟨hread, hinfer⟩ := render_uniquely_readable
  exact ⟨hs, ht, legible_twoOrders _, legible_twoOrders _,
    hread _ _ hs ht (legible_twoOrders _) (legible_twoOrders _) 1 (by decide), isJson_threeKinds,
    hinfer _ (List.cons_ne_nil _ _) (List.forall_mem_singleton.2 isJson_threeKinds)⟩

end Shape
end SampleShape
