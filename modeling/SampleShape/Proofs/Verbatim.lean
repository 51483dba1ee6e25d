/-
# Names that stand in type text as they are

A field name is written into its line without quotes, whatever it holds.  The reader of
`Reading` takes the blank of the separator for the end of a name; names with blanks and
tabs need a reader that looks further ahead.

This one knows from the open blocks how many tabs a line starts with, so that tabs of the
name stay with the name.  It takes for the separator the first one after which the line
has no colon (`Mark.headingWord`): the type behind a name has no colon on its first line,
as long as the text that follows has none before a line break (`Mark.Calm`).  The rule
finds the separator of every name that has no line break behind a separator of its own;
and whether a `?` marks an optional field is clear if no name ends in one.  Names of this
kind are `Mark.IsHarmless`.

The reader goes step by step (`Reading.next`), so a text has one complete reading
(`eq_of_moves`).  It follows the rules under which type text is read, and two shapes with
harmless names and items of one kind have one text only if they are equivalent
(`equiv_of_render_eq`).
-/

import Mathlib.Logic.Relation
import Mathlib.Data.List.Infix
import SampleShape.Proofs.Legibility

namespace SampleShape
namespace Mark

/-! ### Where a heading ends -/

/-- Whether there is no colon before the first line break. -/
def Calm (t : Text) : Prop := ∀ c ∈ t.takeWhile (!·.is '\n'), c.is ':' = false

instance (t : Text) : Decidable (Calm t) := inferInstanceAs (Decidable (∀ _ ∈ _, _))

theorem calm_cons_iff {c : CodePoint} {t : Text} :
    Calm (c :: t) ↔ c.is '\n' = true ∨ (c.is ':' = false ∧ Calm t) := by
  unfold Calm
  cases hc : c.is '\n' <;> simp [hc]

/-- The first line ends in the front part, or goes on behind it. -/
theorem calm_append {t rest : Text} (ht : Calm t)
    (hrest : (∀ c ∈ t, c.is '\n' = false) → Calm rest) : Calm (t ++ rest) := by
  induction t with
  | nil => exact hrest nofun
  | cons c t ih =>
    rw [List.cons_append, calm_cons_iff]
    rcases calm_cons_iff.1 ht with hc | ⟨hcolon, ht⟩
    · exact Or.inl hc
    · cases hc : c.is '\n' with
      | true => exact Or.inl rfl
      | false =>
        refine Or.inr ⟨hcolon, ih ht fun hall => hrest ?_⟩
        exact List.forall_mem_cons.2 ⟨hc, hall⟩

/-- A separator on the first line has a colon there. -/
theorem not_calm_append_separator {t : Text} (ht : ∀ c ∈ t, c.is '\n' = false) (rest : Text) :
    ¬ Calm (t ++ (separator ++ rest)) := by
  intro h
  have hcolon := h (.ofChar ':') (by
    rw [List.takeWhile_append_of_pos fun c hc => by simp [ht c hc]]
    exact List.mem_append_right t (List.mem_cons_of_mem _ List.mem_cons_self))
  exact absurd hcolon (by decide)

/-- What stands before the first separator after which the line has no colon. -/
def headingWord : Text → Text
  | [] => []
  | c :: rest =>
    if separator <+: c :: rest ∧ Calm ((c :: rest).drop separator.length) then []
    else c :: headingWord rest

/-- Whether no line break stands behind a separator. -/
def Unbroken (t : Text) : Prop := ∀ u ∈ t.tails, separator <+: u → ∀ c ∈ u, c.is '\n' = false

instance (t : Text) : Decidable (Unbroken t) := inferInstanceAs (Decidable (∀ _ ∈ _, _))

theorem Unbroken.tail {c : CodePoint} {t : Text} (h : Unbroken (c :: t)) : Unbroken t := by
  intro u hu
  refine h u ?_
  rw [List.mem_tails] at hu ⊢
  exact hu.trans (List.suffix_cons c t)

/-- The mark of an optional field is no part of a separator and no line break. -/
theorem Unbroken.concat {t : Text} (h : Unbroken t) : Unbroken (t ++ ("?" : Text)) := by
  have hmark : ("?" : Text) = [.ofChar '?'] := rfl
  intro u hu hsep
  rw [hmark, List.mem_tails, List.suffix_concat_iff] at hu
  rcases hu with rfl | ⟨u, rfl, hu⟩
  · exact nofun
  · rcases List.prefix_concat_iff.1 hsep with heq | hsep
    · have hlast : separator.getLast? = some (.ofChar '?') := by
        rw [heq, List.getLast?_concat]
      exact absurd hlast (by decide)
    · have hall := h u ((List.mem_tails _ _).2 hu) hsep
      exact List.forall_mem_append.2 ⟨hall, List.forall_mem_singleton.2 rfl⟩

/-- **A heading ends at its separator.** -/
theorem headingWord_append {word rest : Text} (hword : Unbroken word) (hrest : Calm rest) :
    headingWord (word ++ (separator ++ rest)) = word := by
  induction word with
  | nil => exact if_pos ⟨List.prefix_append separator rest, hrest⟩
  | cons c word ih =>
    have hsep : separator = [.ofChar ' ', .ofChar ':', .ofChar ' '] := rfl
    have hearly : ¬ (separator <+: c :: (word ++ (separator ++ rest)) ∧
        Calm ((c :: (word ++ (separator ++ rest))).drop separator.length)) := by
      rintro ⟨hpre, hcalm⟩
      -- a separator that starts here leaves the true one on its line, or overlaps it
      match word, hword with
      | [], _ =>
        have hblank : CodePoint.ofChar ':' = .ofChar ' ' := by
          rw [hsep] at hpre
          exact (List.cons_prefix_cons.1 (List.cons_prefix_cons.1 hpre).2).1
        exact absurd hblank (by decide)
      | [d], _ =>
        have hcolon : Calm (.ofChar ':' :: .ofChar ' ' :: rest) := hcalm
        rw [calm_cons_iff] at hcolon
        rcases hcolon with h | h
        · exact absurd h (by decide)
        · exact absurd h.1 (by decide)
      | d :: e :: word, hword =>
        have hfront : separator <+: c :: d :: e :: word := by
          rw [hsep] at hpre ⊢
          simpa [List.cons_prefix_cons] using hpre
        have hline := hword _ ((List.mem_tails _ _).2 List.suffix_rfl) hfront
        refine not_calm_append_separator (fun b hb => hline b ?_) rest hcalm
        exact List.mem_cons_of_mem _ (List.mem_cons_of_mem _ (List.mem_cons_of_mem _ hb))
    rw [List.cons_append, headingWord, if_neg hearly, ih hword.tail]

/-- A name that can be told from what stands around it when it is written as it is. -/
def IsHarmless (name : Text) : Prop := Unbroken name ∧ name.getLast? ≠ some (.ofChar '?')

instance (name : Text) : Decidable (IsHarmless name) := inferInstanceAs (Decidable (_ ∧ _))

/-- The first mark of a text, and what follows it. -/
def first? (t : Text) : Option (Mark × Text) :=
  ((List.range (t.length + 1)).find? fun n => (ofText? (t.take n)).isSome).bind fun n =>
    (ofText? (t.take n)).map (·, t.drop n)

theorem first?_of_spells {t : Text} {m : Mark} (h : Spells t m) (rest : Text) :
    first? (t ++ rest) = some (m, rest) := by
  have hfind : (List.range ((t ++ rest).length + 1)).find?
      (fun n => (ofText? ((t ++ rest).take n)).isSome) = some t.length := by
    refine List.find?_range_eq_some.2 ⟨?_, ?_, fun n hn => ?_⟩
    · rw [List.take_left, h.1]
      rfl
    · rw [List.mem_range, List.length_append]
      omega
    · rw [List.take_append_of_le_length (Nat.le_of_lt hn), h.2 n hn]
      rfl
  rw [first?, hfind, Option.bind_some, List.take_left, List.drop_left, h.1]
  rfl

end Mark

namespace Reading

/-! ### Reading line by line -/

/-- Whether a line of a block starts here. -/
def atLine : Reading → Bool
  | ⟨[], .block _ _ :: _⟩ => true
  | _ => false

theorem atLine_concat (ps : List Shape) (p : Shape) (frames : List Frame) :
    atLine ⟨ps ++ [p], frames⟩ = false := by
  cases ps <;> rfl

/-- Only the signs that end in a line break lead to a new line. -/
theorem atLine_of_step {r r' : Reading} {m : Mark} (h : r.step m = some r')
    (hr : r.atLine = false) (hr' : r'.atLine = true) : m = .openBlock ∨ m = .comma := by
  unfold step at h
  split at h
  case h_6 => exact Or.inl rfl
  case h_8 => exact Or.inr rfl
  -- the bar stays where it is
  case h_2 =>
    cases h
    rw [hr] at hr'
    cases hr'
  -- these open a group or a field
  case h_4 | h_7 =>
    cases h
    cases hr'
  -- these leave a piece behind
  case h_3 =>
    obtain ⟨p, -, rfl⟩ := Option.map_eq_some_iff.1 h
    rw [atLine_concat] at hr'
    cases hr'
  case h_1 | h_5 | h_9 | h_10 =>
    cases h
    rw [atLine_concat] at hr'
    cases hr'
  case h_11 => cases h

/-- How many blocks are open. -/
def blocks : List Frame → Nat
  | [] => 0
  | .block _ _ :: frames => blocks frames + 1
  | _ :: frames => blocks frames

/-- One step through a text: a heading where a line starts with a tab, otherwise the first
mark. -/
def next : Reading × Text → Option (Reading × Text)
  | (r, t) =>
    if r.atLine ∧ t.head? = some (.ofChar '\t') then
      let line := t.drop (blocks r.frames)
      let word := Mark.headingWord line
      (r.step (.ofHeading word)).map (·, line.drop (word ++ Mark.separator).length)
    else
      (Mark.first? t).bind fun found => (r.step found.1).map (·, found.2)

/-- The steps through a text. -/
def Moves (x y : Reading × Text) : Prop := next x = some y

/-- **A text has one complete reading.** -/
theorem eq_of_moves {x y z : Reading × Text} (hy : Relation.ReflTransGen Moves x y)
    (hz : Relation.ReflTransGen Moves x z) (hyend : next y = none) (hzend : next z = none) :
    y = z := by
  have hunique : Relator.RightUnique Moves := fun a b c hb hc => by
    unfold Moves at hb hc
    exact Option.some.inj (hb.symm.trans hc)
  have hstay : ∀ {a b}, next a = none → Relation.ReflTransGen Moves a b → a = b := by
    intro a b hend hrun
    rcases hrun.cases_head with heq | ⟨c, hac, -⟩
    · exact heq
    · rw [Moves, hend] at hac
      cases hac
  rcases Relation.ReflTransGen.total_of_right_unique hunique hy hz with hyz | hzy
  · exact hstay hyend hyz
  · exact (hstay hzend hzy).symm

theorem next_of_spells {t : Text} {m : Mark} (ht : Mark.Spells t m)
    (htab : t.head? ≠ some (.ofChar '\t')) {r r' : Reading} (h : r.step m = some r')
    (rest : Text) : next (r, t ++ rest) = some (r', rest) := by
  have hhead : (t ++ rest).head? ≠ some (.ofChar '\t') := by
    cases t with
    | nil =>
      have hm := ht.1
      rw [Mark.ofText?_nil] at hm
      cases hm
    | cons c t => exact htab
  rw [next, if_neg fun hcond => hhead hcond.2, Mark.first?_of_spells ht, Option.bind_some, h]
  rfl

/-- At the start of a line the heading is read whole, with the tabs of its name. -/
theorem next_heading {frames : List Frame} {name : Text} (hname : Mark.IsHarmless name)
    (optional : Bool) (outer : List Shape) (done : List (Text × Shape)) {rest : Text}
    (hrest : Mark.Calm rest) :
    next (⟨[], .block outer done :: frames⟩, Mark.tabs (blocks frames + 1) ++
        (name ++ (if optional then ("?" : Text) else []) ++ Mark.separator) ++ rest) =
      some (⟨[], .field name optional :: .block outer done :: frames⟩, rest) := by
  have hword : Mark.Unbroken (name ++ if optional then ("?" : Text) else []) := by
    cases optional with
    | false => simpa using hname.1
    | true => exact hname.1.concat
  have hline : (Mark.tabs (blocks frames + 1) ++
      (name ++ (if optional then ("?" : Text) else []) ++ Mark.separator) ++ rest).drop
        (blocks (.block outer done :: frames)) =
      (name ++ if optional then ("?" : Text) else []) ++ (Mark.separator ++ rest) := by
    have hlen : blocks (.block outer done :: frames) = (Mark.tabs (blocks frames + 1)).length :=
      (List.length_replicate ..).symm
    rw [hlen, List.append_assoc, List.drop_left, List.append_assoc]
  rw [next, if_pos ⟨rfl, rfl⟩]
  dsimp only
  rw [hline, Mark.headingWord_append hword hrest, Mark.ofHeading_eq hname.2, ← List.append_assoc,
    List.drop_left]
  rfl

/-- Whether the text that follows leaves the separator of the last heading in sight. -/
def Ready (r : Reading) (rest : Text) : Prop := r.atLine = false → Mark.Calm rest

/-- The reader that takes a heading for what stands before its separator, tabs apart. -/
def verbatimRules : Rules where
  Reads t r r' := ∀ rest, Ready r' rest →
    Ready r (t ++ rest) ∧ Relation.ReflTransGen Moves (r, t ++ rest) (r', rest)
  Fits level frames := level = blocks frames + 1
  Tells := Mark.IsHarmless
  nil r rest hrest := ⟨hrest, .refl⟩
  trans {t t' r r' r''} h h' rest hrest := by
    obtain ⟨hready', hrun'⟩ := h' rest hrest
    obtain ⟨hready, hrun⟩ := h (t' ++ rest) hready'
    rw [List.append_assoc]
    exact ⟨hready, hrun.trans hrun'⟩
  mark {t m} hmem r r' hstep rest hrest := by
    have hcalm : ∀ e ∈ Mark.table, Mark.Calm e.1 ∧ e.1.head? ≠ some (.ofChar '\t') ∧
        (e.2 = .openBlock ∨ e.2 = .comma → ∃ c ∈ e.1, c.is '\n' = true) := by decide
    obtain ⟨hline, htab, hbreak⟩ := hcalm _ hmem
    refine ⟨fun hr => Mark.calm_append hline fun hall => hrest ?_, .single ?_⟩
    · -- a sign without a line break leads to no new line
      by_contra hr'
      obtain ⟨c, hc, hnewline⟩ := hbreak (atLine_of_step hstep hr (by simpa using hr'))
      rw [hall c hc] at hnewline
      cases hnewline
    · exact next_of_spells (Mark.spells_of_mem_table _ hmem) htab hstep rest
  close n r r' hstep rest _ := by
    have htab : CodePoint.ofChar '\n' ≠ .ofChar '\t' := by decide
    refine ⟨fun _ => Mark.calm_cons_iff.2 (Or.inl rfl), .single ?_⟩
    exact next_of_spells (Mark.spells_closeBlock n) (fun h => htab (Option.some.inj h)) hstep rest
  heading := by
    intro level frames hlevel name hname optional outer done rest hrest
    refine ⟨nofun, .single ?_⟩
    have htabs : level.toNat = blocks frames + 1 := by omega
    rw [htabs]
    exact next_heading hname optional outer done (hrest rfl)
  fits_group h _ := h
  fits_field h _ _ _ _ := by
    simp only [blocks]
    omega

end Reading

namespace Shape

/-! ### Shapes of one text -/

/-- **The text of a shape is read to its end,** and leaves its pieces. -/
theorem moves_render {s : Shape} (hs : s.Formed) (hn : Everywhere (NamedHere Mark.IsHarmless) s)
    (hu : s.Unmixed) :
    Relation.ReflTransGen Reading.Moves (⟨[], []⟩, s.render {} 1) (⟨s.settle.pieces, []⟩, []) := by
  have hfits : Reading.verbatimRules.Fits 1 [] := rfl
  have hreads := reads_renderAt Reading.verbatimRules hs hn hu false [] hfits
  obtain ⟨-, hrun⟩ := hreads [] fun _ => nofun
  rwa [List.append_nil, List.nil_append, shown_false] at hrun

theorem mem_undefinedLast {s : Shape} {l : Leaf} : l ∈ s.undefinedLast.leaves ↔ l ∈ s.leaves := by
  simp only [undefinedLast, List.mem_append, List.mem_filter, decide_eq_true_eq]
  by_cases hl : l = .undefined <;> simp [hl]

/-- Fields agree with what they go to one by one, from either side. -/
theorem fieldsAgree_map {g : Shape → Shape} {fs : List (Text × Shape)} (hn : (names fs).Nodup)
    (h : ∀ f ∈ fs, f.2.equiv (g f.2) ∧ (g f.2).equiv f.2) :
    FieldsAgree (some fs) (some (fs.map fun f => (f.1, g f.2))) ∧
      FieldsAgree (some (fs.map fun f => (f.1, g f.2))) (some fs) := by
  refine ⟨⟨fun k => by rw [names_map], fun f hf => ⟨g f.2, ?_, (h f hf).1⟩⟩,
    fun k => by rw [names_map], fun e he => ?_⟩
  · rw [field?_map, field?_of_mem hn hf]
    rfl
  · obtain ⟨f, hf, rfl⟩ := List.mem_map.1 he
    exact ⟨f.2, field?_of_mem hn hf, (h f hf).2⟩

/-- Items agree with what they go to one by one, from either side. -/
theorem itemsAgree_map {g : Shape → Shape} {xs : List Shape}
    (h : ∀ x ∈ xs, x.equiv (g x) ∧ (g x).equiv x) :
    ItemsAgree (some xs) (some (xs.map g)) ∧ ItemsAgree (some (xs.map g)) (some xs) := by
  refine ⟨⟨fun x hx => ⟨g x, List.mem_map_of_mem hx, (h x hx).1⟩, fun y hy => ?_⟩,
    fun y hy => ?_, fun x hx => ⟨g x, List.mem_map_of_mem hx, (h x hx).2⟩⟩
  · obtain ⟨x, hx, rfl⟩ := List.mem_map.1 hy
    exact ⟨x, hx, (h x hx).1⟩
  · obtain ⟨x, hx, rfl⟩ := List.mem_map.1 hy
    exact ⟨x, hx, (h x hx).2⟩

/-- Settling moves leaf kinds only, so the settled shape is equivalent, from either side. -/
theorem equiv_settle {s : Shape} (hs : s.Formed) : s.equiv s.settle ∧ s.settle.equiv s := by
  induction hs with
  | intro here _ _ ihf ihx =>
    rename_i s _ _
    have hlast : ∀ {x y : Shape}, x.equiv y ∧ y.equiv x →
        x.equiv y.undefinedLast ∧ y.undefinedLast.equiv x := by
      intro x y
      rw [equiv_iff, equiv_iff, equiv_iff, equiv_iff]
      simp only [mem_undefinedLast]
      exact id
    have hfields : FieldsAgree s.fields s.settle.fields ∧
        FieldsAgree s.settle.fields s.fields := by
      rw [settle_eq]
      cases hfs : s.fields with
      | none => exact ⟨trivial, trivial⟩
      | some fs =>
        exact fieldsAgree_map (g := fun x => x.settle.undefinedLast) (here.names fs hfs)
          fun f hf => hlast (ihf fs hfs f hf)
    have hitems : ItemsAgree s.items s.settle.items ∧ ItemsAgree s.settle.items s.items := by
      rw [settle_eq]
      cases hxs : s.items with
      | none => exact ⟨trivial, trivial⟩
      | some xs => exact itemsAgree_map fun x hx => ihx xs hxs x hx
    rw [equiv_iff, equiv_iff, settle_leaves]
    exact ⟨⟨fun _ => Iff.rfl, hfields.1, hitems.1⟩, fun _ => Iff.rfl, hfields.2, hitems.2⟩

/-- **Shapes of one text are equivalent,** if their names are harmless and their items of
one kind. -/
theorem equiv_of_render_eq {s t : Shape} (hs : s.Formed) (ht : t.Formed)
    (hns : Everywhere (NamedHere Mark.IsHarmless) s)
    (hnt : Everywhere (NamedHere Mark.IsHarmless) t) (hus : s.Unmixed) (hut : t.Unmixed)
    (h : s.render {} 1 = t.render {} 1) : s.equiv t := by
  have hend : ∀ ps, Reading.next (⟨ps, []⟩, []) = none := fun ps => by
    cases ps <;> rfl
  have hruns := moves_render hs hns hus
  rw [h] at hruns
  have hpieces : s.settle.pieces = t.settle.pieces := by
    have hsame := Reading.eq_of_moves hruns (moves_render ht hnt hut) (hend _) (hend _)
    exact congrArg (·.1.pieces) hsame
  have hsettle : s.settle = t.settle := by
    rw [← union_pieces s.settle, hpieces, union_pieces]
  have hst := (equiv_settle hs).1
  rw [hsettle] at hst
  exact equiv_trans hst (equiv_settle ht).2

end Shape
end SampleShape
