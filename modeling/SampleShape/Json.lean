/-
# Reading JSON

A document is one value with blanks around it; blanks are space, tab, line feed
and carriage return.  Beyond the standard, the words `NaN`, `Infinity` and
`-Infinity` are numbers, a name may occur twice in an object (the later value
takes the place of the earlier), and an escape may name half of a surrogate pair
alone.  An integer has at most 4300 digits.

A refusal says what was wanted and where: the position counts code points from
zero, lines and columns count from one.  A number is read as far as its grammar
goes, and what follows it is judged as a delimiter.

The nesting of containers bounds no loop of the reader on its own, so reading
counts down from the length of the document: every value or item consumes at
least one code point.
-/

import SampleShape.Value

namespace SampleShape
namespace Json

/-- What a document lacks, or has too much of. -/
inductive Cause where
  | value
  | name
  | colon
  | comma
  | extraData
  | unterminatedText
  | controlCharacter
  | escape
  | unicodeEscape
  | byteOrderMark
  deriving DecidableEq

/-- The wording of a cause. -/
def Cause.message : Cause → Text
  | .value => "Expecting value"
  | .name => "Expecting property name enclosed in double quotes"
  | .colon => "Expecting ':' delimiter"
  | .comma => "Expecting ',' delimiter"
  | .extraData => "Extra data"
  | .unterminatedText => "Unterminated string starting at"
  | .controlCharacter => "Invalid control character at"
  | .escape => "Invalid \\escape"
  | .unicodeEscape => "Invalid \\uXXXX escape"
  | .byteOrderMark => "Unexpected UTF-8 BOM (decode using utf-8-sig)"

/-- Why reading stops. -/
inductive Stop where
  | refused (cause : Cause) (position : Nat)
  | longInteger (l : LongInteger)

/-- The place that reading has reached. -/
structure Cursor where
  position : Nat
  rest : Text

/-- The blanks between tokens. -/
def isBlank (c : CodePoint) : Bool := c.is ' ' || c.is '\t' || c.is '\n' || c.is '\r'

/-- The place after a number of code points. -/
def Cursor.advance (n : Nat) (p : Cursor) : Cursor := ⟨p.position + n, p.rest.drop n⟩

/-- The first place that is not blank. -/
def Cursor.skip (p : Cursor) : Cursor := p.advance (p.rest.takeWhile isBlank).length

/-- Whether the next code point is a given character. -/
def Cursor.sees (p : Cursor) (ch : Char) : Bool :=
  match p.rest with
  | [] => false
  | c :: _ => c.is ch

/-! ### Text -/

/-- Puts the halves of surrogate pairs together. -/
def pairSurrogates : Text → Text
  | high :: low :: rest =>
    if high.isHighSurrogate && low.isLowSurrogate then
      .ofNat (0x10000 + (high.val - 0xD800) * 0x400 + (low.val - 0xDC00)) :: pairSurrogates rest
    else high :: pairSurrogates (low :: rest)
  | t => t
termination_by t => t.length

/-- The code point of a one-letter escape. -/
def shortEscape? (c : CodePoint) : Option CodePoint :=
  if c.val = 0x22 || c.is '\\' || c.is '/' then some c
  else if c.is 'b' then some (.ofNat 0x08)
  else if c.is 'f' then some (.ofNat 0x0C)
  else if c.is 'n' then some (.ofChar '\n')
  else if c.is 'r' then some (.ofChar '\r')
  else if c.is 't' then some (.ofChar '\t')
  else none

/-- The code point of four hexadecimal digits. -/
def hexEscape? (a b c d : CodePoint) : Option CodePoint := do
  let (a, b, c, d) := (← a.hexDigit?, ← b.hexDigit?, ← c.hexDigit?, ← d.hexDigit?)
  return .ofNat (((a * 16 + b) * 16 + c) * 16 + d)

/-- The rest of a quoted text whose opening quote is at `start`; `read` holds
what was read, latest first. -/
def readText (start position : Nat) (read : Text) : Text → Except Stop (Text × Cursor)
  | [] => .error (.refused .unterminatedText start)
  | c :: rest =>
    if c.val = 0x22 then .ok (pairSurrogates read.reverse, ⟨position + 1, rest⟩)
    else if c.is '\\' then
      match rest with
      | [] => .error (.refused .unterminatedText start)
      | e :: rest =>
        if e.is 'u' then
          match rest with
          | h₁ :: h₂ :: h₃ :: h₄ :: next :: rest =>
            match hexEscape? h₁ h₂ h₃ h₄ with
            | none => .error (.refused .unicodeEscape (position + 1))
            | some d => readText start (position + 6) (d :: read) (next :: rest)
          | _ => .error (.refused .unicodeEscape (position + 1))
        else
          match shortEscape? e with
          | none => .error (.refused .escape position)
          | some d => readText start (position + 2) (d :: read) rest
    else if c.val < 0x20 then .error (.refused .controlCharacter position)
    else readText start (position + 1) (c :: read) rest
termination_by t => t.length

/-! ### Numbers -/

/-- The parts of a numeral: its sign, the digits before and after the point, and
the exponent with its sign. -/
structure Numeral where
  negative : Bool
  whole : Text
  fraction : Text
  exponent : Option (Bool × Text)

/-- The digits before the point: a lone zero, or a row that starts with no zero. -/
def wholePart (t : Text) : Text :=
  match t with
  | [] => []
  | c :: _ => if c.is '0' then [c] else t.takeWhile (·.isDigit)

/-- The digits after a point, if there is one with a digit. -/
def fractionPart (t : Text) : Text :=
  match t with
  | [] => []
  | c :: rest => if c.is '.' then rest.takeWhile (·.isDigit) else []

/-- An exponent mark with its digits, and the length of the whole. -/
def exponentPart (t : Text) : Option ((Bool × Text) × Nat) :=
  match t with
  | [] => none
  | c :: rest =>
    if c.is 'e' || c.is 'E' then
      let signed := match rest with
        | [] => false
        | s :: _ => s.is '-' || s.is '+'
      let (negative, unsigned) := Decimal.readSign rest
      let digits := unsigned.takeWhile (·.isDigit)
      if digits.isEmpty then none
      else some ((negative, digits), 1 + (if signed then 1 else 0) + digits.length)
    else none

/-- The longest numeral at the front of a text, and the number of code points it
takes up. -/
def numeral? (t : Text) : Option (Numeral × Nat) :=
  let negative := match t with
    | [] => false
    | c :: _ => c.is '-'
  let signLength := if negative then 1 else 0
  let whole := wholePart (t.drop signLength)
  if whole.isEmpty then none
  else
    let beforePoint := signLength + whole.length
    let fraction := fractionPart (t.drop beforePoint)
    let beforeExponent := beforePoint + (if fraction.isEmpty then 0 else 1 + fraction.length)
    match exponentPart (t.drop beforeExponent) with
    | none => some (⟨negative, whole, fraction, none⟩, beforeExponent)
    | some (exponent, length) =>
      some (⟨negative, whole, fraction, some exponent⟩, beforeExponent + length)

/-- The number of a numeral: an integer unless it has a fraction or an exponent. -/
def Numeral.value (n : Numeral) : Except Stop Value :=
  if n.fraction.isEmpty && n.exponent.isNone then
    match Decimal.readDigits n.whole with
    | .ok magnitude => .ok (.integer (Decimal.signed n.negative magnitude))
    | .error l => .error (.longInteger l)
  else
    let exponent : Int := match n.exponent with
      | none => 0
      | some (negative, digits) => Decimal.signed negative (Text.toNat digits)
    .ok (.real (.ofDecimal ⟨n.negative, Text.toNat (n.whole ++ n.fraction),
      exponent - n.fraction.length⟩))

/-! ### Values -/

/-- The words that are values. -/
def words : List (Text × Value) :=
  [("null", .null), ("true", .boolean true), ("false", .boolean false), ("NaN", .real .nan),
   ("Infinity", .real (.infinite false)), ("-Infinity", .real (.infinite true))]

/-- A word or a number. -/
def readAtom (p : Cursor) : Except Stop (Value × Cursor) :=
  match words.find? fun w => p.rest.startsWith w.1 with
  | some (word, v) => .ok (v, p.advance word.length)
  | none =>
    match numeral? p.rest with
    | none => .error (.refused .value p.position)
    | some (n, length) => do return (← n.value, p.advance length)

mutual

/-- A value that starts at a place. -/
def readValue : Nat → Cursor → Except Stop (Value × Cursor)
  | 0, p => .error (.refused .value p.position)
  | n + 1, p =>
    if p.sees '[' then
      let inside := (p.advance 1).skip
      if inside.sees ']' then .ok (.list [], inside.advance 1) else readItems n [] inside
    else if p.sees '\x7b' then
      let inside := (p.advance 1).skip
      if inside.sees '\x7d' then .ok (.mapping [], inside.advance 1) else readEntries n [] inside
    else if p.sees '\x22' then do
      let (t, p) ← readText p.position (p.position + 1) [] (p.rest.drop 1)
      return (.text t, p)
    else readAtom p

/-- The items of an array from a place on; `items` holds the earlier ones, latest
first. -/
def readItems : Nat → List Value → Cursor → Except Stop (Value × Cursor)
  | 0, _, p => .error (.refused .value p.position)
  | n + 1, items, p => do
    let (v, p) ← readValue n p
    let p := p.skip
    if p.sees ']' then return (.list (v :: items).reverse, p.advance 1)
    else if p.sees ',' then readItems n (v :: items) (p.advance 1).skip
    else .error (.refused .comma p.position)

/-- The entries of an object from a place on, after the earlier ones. -/
def readEntries : Nat → List (Value × Value) → Cursor → Except Stop (Value × Cursor)
  | 0, _, p => .error (.refused .name p.position)
  | n + 1, entries, p =>
    if !p.sees '\x22' then .error (.refused .name p.position)
    else do
      let (key, p) ← readText p.position (p.position + 1) [] (p.rest.drop 1)
      let p := p.skip
      if !p.sees ':' then .error (.refused .colon p.position)
      else
        let (v, p) ← readValue n (p.advance 1).skip
        let p := p.skip
        let entries := Value.insertEntry (.text key) v entries
        if p.sees '\x7d' then return (.mapping entries, p.advance 1)
        else if p.sees ',' then readEntries n entries (p.advance 1).skip
        else .error (.refused .comma p.position)

end

/-- Why a document is refused. -/
inductive Fault where
  | malformed (cause : Cause) (line column position : Nat)
  | longInteger (l : LongInteger)

namespace Fault

/-- The wording of a refusal. -/
def message : Fault → Text
  | .malformed cause line column position =>
    .concat [cause.message, ": line ", .ofNat line, " column ", .ofNat column, " (char ",
      .ofNat position, ")"]
  | .longInteger l => l.message

/-- The refusal of a document at a place. -/
def ofStop (document : Text) : Stop → Fault
  | .longInteger l => .longInteger l
  | .refused cause position =>
    let before := document.take position
    let column := (before.reverse.takeWhile fun c => !c.is '\n').length + 1
    .malformed cause ((before.filter (·.is '\n')).length + 1) column position

end Fault

/-- The value of a document, up to its end. -/
def readDocument (document : Text) : Except Stop Value :=
  if document.head?.any (·.val == 0xFEFF) then .error (.refused .byteOrderMark 0)
  else do
    let (v, p) ← readValue (2 * document.length + 2) (Cursor.skip ⟨0, document⟩)
    let p := p.skip
    if p.rest.isEmpty then return v else .error (.refused .extraData p.position)

/-- The value of a document. -/
def read (document : Text) : Except Fault Value :=
  (readDocument document).mapError (.ofStop document)

end Json
end SampleShape
