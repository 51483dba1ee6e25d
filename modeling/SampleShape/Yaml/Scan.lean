/-
# Cutting a document into tokens

Indentation opens and closes blocks.  A scalar opens a mapping when the colon behind
it shows that it is a key: it is held back until that is settled, and then the
tokens of the mapping and of the key go in front of it.  A key and its colon stand
on one line, at most 1024 code points apart.  A scalar that starts in the column of
an open mapping has to be a key.
-/

import SampleShape.Yaml.Token
import SampleShape.Yaml.Plain
import SampleShape.Yaml.Quoted

namespace SampleShape
namespace Yaml

/-! ### The state of the cut -/

/-- The number of code points of the blanks, the line breaks and the comments at the
front of a text. -/
def gapLength (inComment : Bool) : Text → Nat
  | [] => 0
  | c :: rest =>
    if isBreak c then gapLength false rest + 1
    else if inComment then gapLength true rest + 1
    else if c.is ' ' then gapLength false rest + 1
    else if c.is '#' then gapLength true rest + 1
    else 0

/-- A scalar that may turn out to be a key. -/
structure Candidate where
  index : Nat
  mark : Mark
  /-- Whether it has to be a key. -/
  required : Bool
  /-- How many of the tokens at hand stand before it. -/
  before : Nat

/-- The state between two tokens. -/
structure Scan where
  place : Place
  /-- The columns of the open blocks, from the innermost to the outermost. -/
  columns : List Nat
  /-- Whether a key can start here. -/
  keyAllowed : Bool
  candidate : Option Candidate
  /-- The tokens that wait for the candidate to be settled. -/
  held : List Token

namespace Scan

/-- The most code points between the start of a key and its colon. -/
def maxKeyLength : Nat := 1024

/-- The least indentation of a line that belongs to the innermost block. -/
def margin (s : Scan) : Nat :=
  match s.columns with
  | [] => 0
  | column :: _ => column + 1

/-- More tokens at hand. -/
def push (s : Scan) (symbols : List Symbol) (start stop : Mark) : Scan :=
  { s with held := s.held ++ symbols.map fun symbol => ⟨symbol, start, stop⟩ }

/-- Gives up the candidate. -/
def dropCandidate (s : Scan) : Except Fault Scan :=
  match s.candidate with
  | none => .ok s
  | some k =>
    if k.required then .error (.unfinishedKey k.mark s.place.mark)
    else .ok { s with candidate := none }

/-- Gives up a candidate that is too far back. -/
def dropStale (s : Scan) : Except Fault Scan :=
  match s.candidate with
  | none => .ok s
  | some k =>
    let here := s.place
    if k.mark.line ≠ here.mark.line || maxKeyLength < here.index - k.index then s.dropCandidate
    else .ok s

/-- Passes over blanks, line breaks and comments, and over a byte order mark at the
front of the document. -/
def skipGap (s : Scan) : Except Fault Scan := do
  let isMark := s.place.index == 0 && s.place.rest.head?.any (·.val == byteOrderMark)
  let start ← s.place.advance (if isMark then 1 else 0)
  let place ← start.advance (gapLength false start.rest)
  return { s with place, keyAllowed := s.keyAllowed || start.mark.line < place.mark.line }

/-- Closes the blocks that are indented further than a column; without a column, all
of them. -/
def closeBlocks (s : Scan) (column : Option Nat) : Scan :=
  let isInner (c : Nat) : Bool := column.all (· < c)
  let closed := s.columns.takeWhile isInner
  let s := s.push (closed.map fun _ => .blockEnd) s.place.mark s.place.mark
  { s with columns := s.columns.dropWhile isInner }

/-- Whether a block that starts in a column is a new one. -/
def opensAt (s : Scan) (column : Nat) : Bool := s.columns.head?.all (· < column)

/-- A mark of one character that may open a block. -/
def pushMark (s : Scan) (opening : Symbol) (symbol : Symbol) : Except Fault Scan := do
  let here := s.place.mark
  if !s.keyAllowed then throw (.misplaced symbol here)
  let s :=
    if s.opensAt here.column then
      { s.push [opening] here here with columns := here.column :: s.columns }
    else s
  let s ← s.dropCandidate
  let place ← s.place.advance 1
  return { s.push [symbol] here place.mark with place }

/-- A colon behind the word that it makes a key. -/
def pushValueOf (s : Scan) (k : Candidate) : Except Fault Scan := do
  let isNew := s.opensAt k.mark.column
  let opening : List Symbol := if isNew then [.mappingStart, .key] else [.key]
  let inserted := opening.map fun symbol => (⟨symbol, k.mark, k.mark⟩ : Token)
  let place ← s.place.advance 1
  let s := { s with
    held := s.held.take k.before ++ inserted ++ s.held.drop k.before
    columns := if isNew then k.mark.column :: s.columns else s.columns
    candidate := none
    keyAllowed := false }
  return { s.push [.value] s.place.mark place.mark with place }

/-- A colon before a blank. -/
def pushValue (s : Scan) : Except Fault Scan :=
  match s.candidate with
  | some k => s.pushValueOf k
  | none => s.pushMark .mappingStart .value

/-- The limit of a document. -/
def pushLimit (s : Scan) (symbol : Symbol) : Except Fault Scan := do
  let s ← (s.closeBlocks none).dropCandidate
  let place ← s.place.advance 3
  return { s.push [symbol] s.place.mark place.mark with place, keyAllowed := false }

/-- A bracket or a comma, which no block can hold. -/
def pushBracket (s : Scan) (c : CodePoint) : Except Fault Scan := do
  let s ← s.dropCandidate
  let place ← s.place.advance 1
  return { s.push [.bracket c] s.place.mark place.mark with place }

/-- Makes the next token the candidate for a key if one can start here. -/
def saveCandidate (s : Scan) : Except Fault Scan := do
  if s.keyAllowed then
    let s ← s.dropCandidate
    let here := s.place.mark
    let required := s.columns.head? = some here.column
    return { s with candidate := some ⟨s.place.index, here, required, s.held.length⟩ }
  else return s

/-- A plain scalar. -/
def pushPlain (s : Scan) : Except Fault Scan := do
  let here := s.place.mark
  let s ← s.saveCandidate
  let (t, gap) ← s.place.plain s.margin
  return { s.push [.word false t] here here with
    place := gap.place, keyAllowed := gap.crossesLine }

/-- A quoted scalar. -/
def pushQuoted (s : Scan) (double : Bool) : Except Fault Scan := do
  let here := s.place.mark
  let s ← s.saveCandidate
  let (t, place) ← s.place.quoted double
  return { s.push [.word true t] here here with place, keyAllowed := false }

/-- The end of the document. -/
def finish (s : Scan) : Except Fault (List Token × Mark) := do
  let s ← (s.closeBlocks none).dropCandidate
  return (s.held, s.place.mark)

/-! ### Choosing what comes next -/

/-- The code points that stand for something by themselves and are not supported. -/
def unsupported : Text := "[\x7b&*!|>"

/-- The code points that close or divide what is not supported. -/
def brackets : Text := "]\x7d,"

/-- The code points that start no token. -/
def strays : Text := "\t%@\x60"

/-- Adds the token at a place, which the code point `c` starts. -/
def pushNext (s : Scan) (c : CodePoint) (rest : Text) : Except Fault Scan :=
  let atStart := s.place.mark.column == 0
  let isMark := startsBlank rest
  if atStart && c.is '%' then .error .unsupported
  else if atStart && startsLimit "---" s.place.rest then s.pushLimit .documentStart
  else if atStart && startsLimit "..." s.place.rest then s.pushLimit .documentEnd
  else if c ∈ brackets then s.pushBracket c
  else if c.is '-' && isMark then s.pushMark .sequenceStart .entry
  else if c.is '?' && isMark then s.pushMark .mappingStart .key
  else if c.is ':' && isMark then s.pushValue
  else if c ∈ unsupported then .error .unsupported
  else if c.is '\'' then s.pushQuoted false
  else if c.is '"' then s.pushQuoted true
  else if c ∈ strays then .error (.strayCharacter c s.place.mark)
  else s.pushPlain

/-- Gives out the tokens at hand that stand before the candidate. -/
def release (s : Scan) : List Token × Scan :=
  match s.candidate with
  | none => (s.held, { s with held := [] })
  | some k =>
    (s.held.take k.before,
      { s with held := s.held.drop k.before, candidate := some { k with before := 0 } })

/-- Goes on to the next token.  At the end of the document there is no further
state. -/
def step (s : Scan) : Except Fault (List Token × (Scan ⊕ Mark)) := do
  let s ← (← s.skipGap).dropStale
  let s := s.closeBlocks (some s.place.mark.column)
  match s.place.rest with
  | [] =>
    let (tokens, here) ← s.finish
    return (tokens, .inr here)
  | c :: rest =>
    let s ← (← s.pushNext c rest).dropStale
    let (tokens, s) := s.release
    return (tokens, .inl s)

/-- The tokens from a state on, after at most as many steps as the first argument. -/
def tokensFrom : Nat → Scan → Tokens
  | 0, s => .finished s.place.mark
  | n + 1, s =>
    match s.step with
    | .error f => .broken f
    | .ok (tokens, .inr here) => .after tokens (.finished here)
    | .ok (tokens, .inl s) => .after tokens (tokensFrom n s)

end Scan

/-- The tokens of a source.  Every step but the last one passes over a code point. -/
def Source.tokens (s : Source) : Tokens :=
  if s.readable.isEmpty && s.fault.isSome then (s.fault.map .broken).getD (.finished ⟨0, 0⟩)
  else
    Scan.tokensFrom (s.readable.length + 1) ⟨⟨0, ⟨0, 0⟩, s.readable, s.fault⟩, [], true, none, []⟩

end Yaml
end SampleShape
