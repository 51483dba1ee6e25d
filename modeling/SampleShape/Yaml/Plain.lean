/-
# Plain scalars in a document

A plain scalar is a row of words.  It goes on over blanks, and over line breaks as
long as the lines are indented further than the block.  It ends at a colon before a
blank, at a `#` after one, which starts a comment, and at the limit of a document.
-/

import SampleShape.Yaml.Place

namespace SampleShape
namespace Yaml

/-- The number of code points at the front of a text up to a blank, a line break or
a colon before one. -/
def wordLength : Text → Nat
  | [] => 0
  | c :: rest =>
    if startsBlank [c] || (c.is ':' && startsBlank rest) then 0 else wordLength rest + 1

/-- The blanks and the line breaks at the front of a text: the number of code points,
the line breaks among them, and whether they end at the limit of a document. -/
def blankLines : Text → Nat × Text × Bool
  | [] => (0, [], false)
  | c :: rest =>
    if c.is ' ' then
      let (n, breaks, limit) := blankLines rest
      (n + 1, breaks, limit)
    else if isBreak c then
      if startsAnyLimit rest then (1, [breakKept c], true)
      else
        let (n, breaks, limit) := blankLines rest
        (n + 1, breakKept c :: breaks, limit)
    else (0, [], false)

/-- What stands between two words of a scalar, or after the last one. -/
structure Gap where
  /-- What it is in the text of the scalar; nothing where the scalar has to end. -/
  text : Text
  /-- Whether a line break is part of it. -/
  crossesLine : Bool
  /-- The place after it. -/
  place : Place

/-- The gap at a place. -/
def gapAt (p : Place) : Except Fault Gap := do
  let blanks := p.rest.takeWhile (·.is ' ')
  let p ← p.advance blanks.length
  match p.rest with
  | [] => return ⟨blanks, false, p⟩
  | c :: rest =>
    if !isBreak c then return ⟨blanks, false, p⟩
    else
      let p ← p.advance 1
      if startsAnyLimit rest then return ⟨[], true, p⟩
      else
        let (n, breaks, limit) := blankLines rest
        let p ← p.advance n
        return ⟨if limit then [] else folded (breakKept c) breaks, true, p⟩

/-- The scalar from a word on, of at most as many words as the first argument, and the
gap after it.  Lines have to be indented by `margin`. -/
def scalarFrom (margin : Nat) : Nat → Place → Except Fault (Text × Gap)
  | 0, p => .ok ([], ⟨[], false, p⟩)
  | n + 1, p => do
    let length := wordLength p.rest
    let word := p.rest.take length
    let gap ← gapAt (← p.advance length)
    let next := gap.place
    if gap.text.isEmpty || next.startsWith '#' || next.mark.column < margin ||
        wordLength next.rest == 0 then
      return (word, gap)
    else
      let (more, last) ← scalarFrom margin n next
      return (word ++ gap.text ++ more, last)

/-- The plain scalar at a place, and the gap after it. -/
def Place.plain (p : Place) (margin : Nat) : Except Fault (Text × Gap) :=
  scalarFrom margin p.rest.length p

end Yaml
end SampleShape
