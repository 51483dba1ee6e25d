/-
# Reading type text

A reader for the text of types in the default style.  It goes through the text once,
from left to right, and collects code points until they spell a mark; each mark then
moves a machine that keeps the pieces of the union it is in, and for every group, block
and field that is still open, what it was doing outside:

  * a word adds a leaf kind to the pieces;
  * `[]` makes an array of the last piece alone, so it binds tighter than `|`;
  * `)[]` makes an array of all pieces of the group;
  * the heading of a field is everything between its tabs and ` : `, and a `?` at its end
    says that the field may be unfilled;
  * `,` and the closing brace end the type of a field.

Which tabs there are does not matter to the reader.  No mark is the front of another, so
the text of a mark is read as that mark, whatever comes after (`steps_of_spells`).  Hence
what a longer text does to the machine is told part by part (`Steps`).
-/

import SampleShape.Proofs.Parts
import SampleShape.Shape.Render

namespace SampleShape

/-- A mark of type text. -/
inductive Mark where
  | word (l : Leaf)
  | bar
  | openGroup
  | closeGroup
  | brackets
  | openBlock
  | comma
  | heading (name : Text) (optional : Bool)
  | closeBlock
  deriving DecidableEq

namespace Mark

/-- The leaf kinds, spelled by name. -/
def words : List (Text × Mark) := Leaf.all.map fun l => (l.name, .word l)

/-- The signs between and around types. -/
def signs : List (Text × Mark) :=
  [(" | ", .bar), ("(", .openGroup), (")[]", .closeGroup), ("[]", .brackets),
    ("\x7b\n", .openBlock), (",\n", .comma)]

/-- The marks that are always spelled in one way. -/
def table : List (Text × Mark) := words ++ signs

/-- What stands between the name of a field and its type. -/
def separator : Text := " : "

/-- The heading of a field from what stands before the separator. -/
def ofHeading (t : Text) : Mark :=
  if t.getLast? = some (.ofChar '?') then .heading t.dropLast true else .heading t false

/-- The heading that a text spells: tabs, a name and the separator. -/
def heading? (t : Text) : Option Mark :=
  let body := t.dropWhile (·.is '\t')
  if body.length < t.length ∧ body.dropWhile (!·.is ' ') = separator then
    some (ofHeading (body.takeWhile (!·.is ' ')))
  else none

/-- The end of a block: a new line, tabs and the brace. -/
def closeBlock? : Text → Option Mark
  | [] => none
  | c :: rest =>
    if c.is '\n' ∧ rest.dropWhile (·.is '\t') = "\x7d" then some .closeBlock else none

/-- The mark that a text spells. -/
def ofText? (t : Text) : Option Mark := (table.lookup t).or ((heading? t).or (closeBlock? t))

theorem ofText?_nil : ofText? [] = none := by decide

/-- Whether a text spells a mark, and nothing shorter at its front spells any. -/
def Spells (t : Text) (m : Mark) : Prop :=
  ofText? t = some m ∧ ∀ n < t.length, ofText? (t.take n) = none

end Mark

/-- What was left open: a group or a block, with the pieces outside of it, or a field of
the block below. -/
inductive Frame where
  | group (outer : List Shape)
  | block (outer : List Shape) (fields : List (Text × Shape))
  | field (name : Text) (optional : Bool)

/-- Where the reader is: the pieces of the union so far, and what is open. -/
structure Reading where
  pieces : List Shape
  frames : List Frame

namespace Reading

/-- The union of pieces, each of which has one kind. -/
def union (ps : List Shape) : Shape :=
  ⟨ps.flatMap (·.leaves), ps.findSome? (·.fields), ps.findSome? (·.items)⟩

/-- The shape of a field from the pieces of its type. -/
def fieldShape (optional : Bool) (ps : List Shape) : Shape :=
  if optional then (union ps).withLeaf .undefined else union ps

/-- What a mark does. -/
def step : Reading → Mark → Option Reading
  | ⟨ps, frames⟩, .word l => some ⟨ps ++ [.leaf l], frames⟩
  | ⟨ps, frames⟩, .bar => some ⟨ps, frames⟩
  | ⟨ps, frames⟩, .brackets =>
    ps.getLast?.map fun p => ⟨ps.dropLast ++ [.array [p]], frames⟩
  | ⟨ps, frames⟩, .openGroup => some ⟨[], .group ps :: frames⟩
  | ⟨ps, .group outer :: frames⟩, .closeGroup => some ⟨outer ++ [.array ps], frames⟩
  | ⟨ps, frames⟩, .openBlock => some ⟨[], .block ps [] :: frames⟩
  | ⟨[], .block outer fs :: frames⟩, .heading name optional =>
    some ⟨[], .field name optional :: .block outer fs :: frames⟩
  | ⟨ps, .field name optional :: .block outer fs :: frames⟩, .comma =>
    some ⟨[], .block outer (fs ++ [(name, fieldShape optional ps)]) :: frames⟩
  | ⟨ps, .field name optional :: .block outer fs :: frames⟩, .closeBlock =>
    some ⟨outer ++ [.object (fs ++ [(name, fieldShape optional ps)])], frames⟩
  | ⟨[], .block outer fs :: frames⟩, .closeBlock => some ⟨outer ++ [.object fs], frames⟩
  | _, _ => none

/-- The shape that was read, once nothing is open. -/
def result : Reading → Option Shape
  | ⟨ps, []⟩ => some (union ps)
  | _ => none

/-- Reads on; `front` is the part of a mark that was read already. -/
def readOn (front : Text) (r : Reading) : Text → Option Shape
  | [] => if front.isEmpty then r.result else none
  | c :: rest =>
    match Mark.ofText? (front ++ [c]) with
    | none => readOn (front ++ [c]) r rest
    | some m => (r.step m).bind fun r => readOn [] r rest

/-- Whether reading a text takes the reader from one place to another. -/
def Steps (t : Text) (r r' : Reading) : Prop :=
  ∀ rest, readOn [] r (t ++ rest) = readOn [] r' rest

theorem steps_nil (r : Reading) : Steps [] r r := fun _ => rfl

theorem Steps.trans {t t' : Text} {r r' r'' : Reading} (h : Steps t r r') (h' : Steps t' r' r'') :
    Steps (t ++ t') r r'' := fun rest => by
  rw [List.append_assoc, h, h']

/-- **The text of a mark is read as that mark.** -/
theorem steps_of_spells {t : Text} {m : Mark} (ht : Mark.Spells t m) {r r' : Reading}
    (h : r.step m = some r') : Steps t r r' := by
  -- at every place inside the text, what is in front spells nothing yet
  suffices hfrom : ∀ (front back rest : Text), t = front ++ back → back ≠ [] →
      readOn front r (back ++ rest) = readOn [] r' rest by
    intro rest
    refine hfrom [] t rest rfl fun hnil => ?_
    have hm := ht.1
    rw [hnil, Mark.ofText?_nil] at hm
    cases hm
  intro front back rest
  induction back generalizing front with
  | nil => exact fun _ hne => absurd rfl hne
  | cons c back ih =>
    intro heq _
    rw [List.cons_append, readOn]
    cases back with
    | nil =>
      rw [← heq, ht.1]
      dsimp only
      rw [h]
      rfl
    | cons d back =>
      have hassoc : t = front ++ [c] ++ (d :: back) := by rw [heq, List.append_assoc]; rfl
      have hnone : Mark.ofText? (front ++ [c]) = none := by
        have hlt : (front ++ [c]).length < t.length := by
          rw [hassoc]
          simp
        have htake : t.take (front ++ [c]).length = front ++ [c] := by
          rw [hassoc, List.take_left]
        rw [← htake]
        exact ht.2 _ hlt
      rw [hnone]
      exact ih (front ++ [c]) hassoc (List.cons_ne_nil d back)

end Reading

/-- The shape that a type text stands for, if it is one. -/
def Shape.read (t : Text) : Option Shape := Reading.readOn [] ⟨[], []⟩ t

namespace Mark

/-! ### Marks and their spelling -/

theorem spells_of_mem_table : ∀ e ∈ table, Spells e.1 e.2 := by
  unfold Spells
  decide

theorem mem_table_word (l : Leaf) : (l.name, .word l) ∈ table := by
  refine List.mem_append_left _ ?_
  exact List.mem_map_of_mem (f := fun l => (l.name, Mark.word l)) (Leaf.mem_all l)

/-- A name that can be told from what stands around it. -/
def IsPlain (name : Text) : Prop :=
  (∀ c ∈ name, c.is ' ' = false ∧ c.is '\t' = false) ∧ name.getLast? ≠ some (.ofChar '?')

instance (name : Text) : Decidable (IsPlain name) := inferInstanceAs (Decidable (_ ∧ _))

/-- Tabs in a row. -/
def tabs (n : Nat) : Text := List.replicate n (.ofChar '\t')

theorem times_tab (n : Nat) : Text.times n "\t" = tabs n := by
  induction n with
  | zero => rfl
  | succ n ih =>
    rw [Text.times] at ih
    rw [Text.times, List.replicate_succ, List.flatten_cons, ih]
    rfl

theorem is_tab_of_mem {n : Nat} {c : CodePoint} (h : c ∈ tabs n) : c.is '\t' = true := by
  rw [List.eq_of_mem_replicate h]
  rfl

/-- What no mark of the table starts with is looked for as a heading or the end of a
block. -/
theorem ofText?_cons {c : CodePoint} (hc : ∀ e ∈ table, e.1.head? ≠ some c) (rest : Text) :
    ofText? (c :: rest) = (heading? (c :: rest)).or (closeBlock? (c :: rest)) := by
  have hnone : table.lookup (c :: rest) = none := by
    refine List.lookup_eq_none_iff.2 fun e he => ?_
    have hne : c :: rest ≠ e.1 := fun heq => hc e he (by rw [← heq]; rfl)
    simpa using hne
  rw [ofText?, hnone, Option.none_or]

/-- A heading has two blanks, both of them in its separator. -/
theorem heading?_eq_none {t : Text} (h : t.countP (·.is ' ') < 2) : heading? t = none := by
  rw [heading?]
  refine if_neg fun hcond => ?_
  have hsub : (t.dropWhile (·.is '\t')).dropWhile (!·.is ' ') |>.Sublist t :=
    (List.dropWhile_sublist _).trans (List.dropWhile_sublist _)
  have hle := hsub.countP_le (p := (·.is ' '))
  rw [hcond.2] at hle
  have htwo : separator.countP (·.is ' ') = 2 := by decide
  omega

theorem heading?_append (n : Nat) {word : Text}
    (hword : ∀ c ∈ word, c.is ' ' = false ∧ c.is '\t' = false) :
    heading? (tabs (n + 1) ++ (word ++ separator)) = some (ofHeading word) := by
  have hbody : (tabs (n + 1) ++ (word ++ separator)).dropWhile (·.is '\t') = word ++ separator := by
    rw [List.dropWhile_append_of_pos fun c hc => is_tab_of_mem hc]
    cases word with
    | nil => rfl
    | cons c rest => exact List.dropWhile_cons_of_neg (by simp [(hword c List.mem_cons_self).2])
  have hdrop : (word ++ separator).dropWhile (!·.is ' ') = separator := by
    rw [List.dropWhile_append_of_pos fun c hc => by simp [(hword c hc).1]]
    rfl
  have htake : (word ++ separator).takeWhile (!·.is ' ') = word := by
    rw [List.takeWhile_append_of_pos fun c hc => by simp [(hword c hc).1]]
    exact List.append_nil word
  have hlen : (word ++ separator).length < (tabs (n + 1) ++ (word ++ separator)).length := by
    rw [tabs]
    simp only [List.length_append, List.length_replicate]
    omega
  rw [heading?, hbody]
  exact (if_pos ⟨hlen, hdrop⟩).trans (by rw [htake])

/-- **A heading is read whole.** -/
theorem spells_ofHeading (n : Nat) {word : Text}
    (hword : ∀ c ∈ word, c.is ' ' = false ∧ c.is '\t' = false) :
    Spells (tabs (n + 1) ++ (word ++ separator)) (ofHeading word) := by
  have htable : ∀ e ∈ table, e.1.head? ≠ some (.ofChar '\t') := by decide
  have htabs : tabs (n + 1) = .ofChar '\t' :: tabs n := rfl
  constructor
  · have hheading := heading?_append n hword
    rw [htabs, List.cons_append] at hheading ⊢
    rw [ofText?_cons htable, hheading]
    rfl
  · -- a shorter front has only the first blank of the separator
    intro k hk
    have hsep : separator = separator.dropLast ++ [.ofChar ' '] := by decide
    have hfront : (tabs (n + 1) ++ (word ++ separator)).take k =
        (tabs (n + 1) ++ (word ++ separator.dropLast)).take k := by
      rw [hsep] at hk ⊢
      rw [← List.append_assoc word, ← List.append_assoc, List.dropLast_concat]
      refine List.take_append_of_le_length ?_
      simp only [List.length_append, List.length_singleton] at hk ⊢
      omega
    have hblanks :
        ((tabs (n + 1) ++ (word ++ separator.dropLast)).take k).countP (·.is ' ') < 2 := by
      have htake := (List.take_sublist k (tabs (n + 1) ++ (word ++ separator.dropLast))).countP_le
        (p := (·.is ' '))
      have hzero : word.countP (·.is ' ') = 0 := List.countP_eq_zero.2 fun c hc => by
        simp [(hword c hc).1]
      have hone : separator.dropLast.countP (·.is ' ') = 1 := by decide
      have hnone : (tabs (n + 1)).countP (·.is ' ') = 0 :=
        List.countP_eq_zero.2 fun c hc => by rw [List.eq_of_mem_replicate hc]; decide
      rw [List.countP_append, List.countP_append, hzero, hone, hnone] at htake
      omega
    rw [hfront]
    cases k with
    | zero => exact ofText?_nil
    | succ k =>
      rw [htabs, List.cons_append, List.take_succ_cons] at hblanks ⊢
      rw [ofText?_cons htable, heading?_eq_none hblanks]
      rfl

theorem ofHeading_eq {name : Text} (h : name.getLast? ≠ some (.ofChar '?')) (optional : Bool) :
    ofHeading (name ++ if optional then ("?" : Text) else []) = .heading name optional := by
  cases optional with
  | false => rw [if_neg Bool.false_ne_true, List.append_nil, ofHeading, if_neg h]
  | true =>
    have hmark : ("?" : Text) = [.ofChar '?'] := rfl
    rw [if_pos rfl, ofHeading, hmark, List.getLast?_concat, if_pos rfl, List.dropLast_concat]

theorem spells_heading (n : Nat) {name : Text} (hname : IsPlain name) (optional : Bool) :
    Spells (tabs (n + 1) ++ (name ++ (if optional then ("?" : Text) else []) ++ separator))
      (.heading name optional) := by
  rw [← ofHeading_eq hname.2]
  refine spells_ofHeading n fun c hc => ?_
  rcases List.mem_append.1 hc with hc | hc
  · exact hname.1 c hc
  · cases optional with
    | false => cases hc
    | true =>
      obtain rfl : c = .ofChar '?' := List.mem_singleton.1 hc
      exact ⟨rfl, rfl⟩

/-- **The end of a block is read whole.** -/
theorem spells_closeBlock (n : Nat) :
    Spells (.ofChar '\n' :: (tabs n ++ [.ofChar '\x7d'])) .closeBlock := by
  have htable : ∀ e ∈ table, e.1.head? ≠ some (.ofChar '\n') := by decide
  have hheading : ∀ rest, heading? (.ofChar '\n' :: rest) = none := by
    intro rest
    rw [heading?]
    refine if_neg fun h => ?_
    exact Nat.lt_irrefl _ h.1
  have hdrop : ∀ rest, (tabs n ++ rest).dropWhile (·.is '\t') = rest.dropWhile (·.is '\t') :=
    fun rest => List.dropWhile_append_of_pos fun c hc => is_tab_of_mem hc
  constructor
  · rw [ofText?_cons htable, hheading, closeBlock?, hdrop]
    rfl
  · intro k hk
    cases k with
    | zero => exact ofText?_nil
    | succ k =>
      -- a shorter front has no brace
      have hfront : (tabs n ++ [CodePoint.ofChar '\x7d']).take k = (tabs n).take k := by
        refine List.take_append_of_le_length ?_
        simp only [List.length_cons, List.length_append, List.length_nil] at hk
        omega
      have hnil : ((tabs n).take k).dropWhile (·.is '\t') = [] := by
        rw [← List.append_nil ((tabs n).take k),
          List.dropWhile_append_of_pos fun c hc => is_tab_of_mem (List.mem_of_mem_take hc)]
        rfl
      rw [List.take_succ_cons, hfront, ofText?_cons htable, hheading, closeBlock?, hnil]
      rfl

end Mark
end SampleShape
