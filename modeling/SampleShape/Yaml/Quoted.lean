/-
# Quoted scalars in a document

Within single quotes every code point stands for itself, and a quote is written
twice.  Within double quotes a backslash starts an escape: a letter for a control
character or a blank, the number of a code point in hexadecimal digits, or a line
break, which then does not count.

Blanks around a line break do not count, and line breaks are folded.  Indentation
plays no part, but the limit of a document cannot stand within quotes.
-/

import SampleShape.Yaml.Place

namespace SampleShape
namespace Yaml

/-! ### Escapes -/

/-- The letters of escapes, and the numbers of the code points that they stand for. -/
def escapeLetters : List (Char × Nat) :=
  [('0', 0), ('a', 7), ('b', 8), ('t', 9), ('\t', 9), ('n', 0xA), ('v', 0xB), ('f', 0xC),
   ('r', 0xD), ('e', 0x1B), (' ', 0x20), ('"', 0x22), ('\\', 0x5C), ('/', 0x2F), ('N', 0x85),
   ('_', 0xA0), ('L', 0x2028), ('P', 0x2029)]

/-- The letters of the escapes that give a number, and how many digits it has. -/
def escapeWidths : List (Char × Nat) := [('x', 2), ('u', 4), ('U', 8)]

/-- What a table gives for a code point. -/
def lookUp (table : List (Char × Nat)) (c : CodePoint) : Option Nat :=
  (table.find? fun e => c.is e.1).map (·.2)

/-- The number that some hexadecimal digits stand for, or the first code point that
is no such digit; the end counts as the code point zero. -/
def hexNumber : Nat → Nat → Text → Except CodePoint Nat
  | 0, n, _ => .ok n
  | _ + 1, _, [] => .error (.ofNat 0)
  | width + 1, n, c :: rest =>
    match c.hexDigit? with
    | some d => hexNumber width (16 * n + d) rest
    | none => .error c

/-! ### Lines -/

/-- The blanks and the line breaks at the front of a text, which may be the start of
a line: the number of code points, the line breaks among them, and whether they end
at the limit of a document. -/
def quotedLines (atStart : Bool) : Text → Nat × Text × Bool
  | [] => (0, [], false)
  | c :: rest =>
    if atStart && startsAnyLimit (c :: rest) then (0, [], true)
    else if isBlank c then
      let (n, breaks, limit) := quotedLines false rest
      (n + 1, breaks, limit)
    else if isBreak c then
      let (n, breaks, limit) := quotedLines true rest
      (n + 1, breakKept c :: breaks, limit)
    else (0, [], false)

/-- The line breaks after a first one, and the place after them. -/
def furtherBreaks (start : Mark) (p : Place) : Except Fault (Text × Place) := do
  let (n, breaks, limit) := quotedLines true p.rest
  let p ← p.advance n
  if limit then throw (.quoted .limit start p.mark) else return (breaks, p)

/-- What the blanks at a place are in the text of the scalar: themselves, or the line
breaks among them. -/
def quotedGap (start : Mark) (p : Place) : Except Fault (Text × Place) := do
  let blanks := p.rest.takeWhile isBlank
  let p ← p.advance blanks.length
  match p.rest with
  | [] => throw (.quoted .streamEnd start p.mark)
  | c :: _ =>
    if isBreak c then
      let (breaks, p) ← furtherBreaks start (← p.advance 1)
      return (folded (breakKept c) breaks, p)
    else return (blanks, p)

/-- What the escape at a place, behind the backslash, stands for. -/
def escape (start : Mark) (p : Place) : Except Fault (Text × Place) := do
  let c := p.rest.head?.getD (.ofNat 0)
  match lookUp escapeLetters c, lookUp escapeWidths c with
  | some n, _ => return ([.ofNat n], ← p.advance 1)
  | none, some width =>
    let p ← p.advance 1
    match hexNumber width 0 p.rest with
    | .error c => throw (.quoted (.badDigit width c) start p.mark)
    | .ok n =>
      if n < 0x110000 then return ([.ofNat n], ← p.advance width) else throw .noCodePoint
  | none, none =>
    if isBreak c then furtherBreaks start (← p.advance 1)
    else throw (.quoted (.unknownEscape c) start p.mark)

/-! ### Scalars -/

/-- Whether a code point stands for itself within quotes of either kind. -/
def isOrdinary (c : CodePoint) : Bool :=
  !(isBlank c || isBreak c || c.is '"' || c.is '\'' || c.is '\\')

/-- The text from a place within quotes on, and the place behind the closing quote.
The number is more than the code points that follow. -/
def quotedFrom (double : Bool) (start : Mark) : Nat → Place → Except Fault (Text × Place)
  | 0, _ => .error .unsupported
  | n + 1, p => do
    let quote := if double then '"' else '\''
    let goOn (t : Text) (p : Place) : Except Fault (Text × Place) := do
      let (more, p) ← quotedFrom double start n p
      return (t ++ more, p)
    match p.rest with
    | [] => throw (.quoted .streamEnd start p.mark)
    | c :: rest =>
      if isBlank c || isBreak c then
        let (gap, p) ← quotedGap start p
        goOn gap p
      else if c.is quote then
        if !double && rest.head?.any (·.is quote) then goOn [c] (← p.advance 2)
        else return ([], ← p.advance 1)
      else if double && c.is '\\' then
        let (meant, p) ← escape start (← p.advance 1)
        goOn meant p
      else
        let run := c :: rest.takeWhile isOrdinary
        goOn run (← p.advance run.length)

/-- The quoted scalar at a place, and the place behind it. -/
def Place.quoted (p : Place) (double : Bool) : Except Fault (Text × Place) := do
  quotedFrom double p.mark (p.rest.length + 1) (← p.advance 1)

end Yaml
end SampleShape
