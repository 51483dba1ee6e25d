/-
# Places in a document

A document is looked at from places.  A place knows what follows it, and the fault
that lies behind what follows: whoever comes too close to the end of what has come
in so far meets that fault.

A line ends with a line feed, or with one of the three other line breaks of
Unicode.  Where a text of several lines becomes a word, a single line break counts
as a blank, and of several ones all but the first are kept; the separators of lines
and of paragraphs are kept in any case.
-/

import SampleShape.Yaml.Source

namespace SampleShape
namespace Yaml

/-! ### Code points -/

/-- Whether a code point is a blank within a line. -/
def isBlank (c : CodePoint) : Bool := c.is ' ' || c.is '\t'

/-- Whether a code point is a line break. -/
def isBreak (c : CodePoint) : Bool :=
  c.is '\n' || c.val == 0x85 || c.val == 0x2028 || c.val == 0x2029

/-- A line break as the text of a word keeps it. -/
def breakKept (c : CodePoint) : CodePoint := if c.val == 0x85 then .ofChar '\n' else c

/-- Whether a text starts with a blank or a line break, or is empty. -/
def startsBlank (t : Text) : Bool := t.head?.all fun c => isBlank c || isBreak c

/-- The byte order mark, which takes up no column. -/
def byteOrderMark : Nat := 0xFEFF

/-- Whether a text starts with a mark of three characters that limits documents. -/
def startsLimit (mark t : Text) : Bool := t.startsWith mark && startsBlank (t.drop 3)

/-- Whether a text starts with one of the marks that limit documents. -/
def startsAnyLimit (t : Text) : Bool := startsLimit "---" t || startsLimit "..." t

/-- What one line break and the further ones after it are in the text of a scalar. -/
def folded (first : CodePoint) (further : Text) : Text :=
  if !first.is '\n' then first :: further
  else if further.isEmpty then " "
  else further

/-! ### Places -/

/-- A place in a document: where it is, what follows, and the fault that lies behind
what follows. -/
structure Place where
  index : Nat
  mark : Mark
  rest : Text
  fault : Option Fault

namespace Place

/-- The place after a code point. -/
def markAfter (m : Mark) (c : CodePoint) : Mark :=
  if isBreak c then ⟨m.line + 1, 0⟩
  else if c.val == byteOrderMark then m
  else ⟨m.line, m.column + 1⟩

/-- Whether more has to come in before a text can be looked at: one code point is
always wanted beyond the one that is looked at. -/
def isShort : Text → Bool
  | [] => true
  | [_] => true
  | _ => false

/-- The place some code points further on. -/
def advance (p : Place) (n : Nat) : Except Fault Place :=
  let rest := p.rest.drop n
  match p.fault.filter fun _ => isShort rest && n != 0 with
  | some f => .error f
  | none =>
    .ok { p with index := p.index + n, mark := (p.rest.take n).foldl markAfter p.mark, rest }

/-- Whether a character comes next. -/
def startsWith (p : Place) (c : Char) : Bool := p.rest.head?.any (·.is c)

end Place

end Yaml
end SampleShape
