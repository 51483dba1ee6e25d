/-
# Plain scalars

A plain scalar is a word without quotes.  It stands for null, a truth value, a
number, a date or a moment if it is spelt like one, and otherwise for itself:

| value | spelling |
| --- | --- |
| integer | `0`, or digits that start with no zero |
| integer, base 2, 8, 16 | `0b` and bits; `0` and octal digits; `0x` and hexadecimal digits |
| integer or number, base 60 | places of two digits at most, divided by `:` |
| number | digits with a point among or before them; an exponent has a sign |
| no finite number | `.inf`, `.nan` |
| date | four, two and two digits, divided by `-` |
| moment | a date, whose last parts may have one digit; then `T`, `t` or blanks, and a time of day |

Underscores among the digits of a number do not count.  A number in base 60 with a
point is the sum of its places, each times its power of 60, from the last to the
first; every product and every sum is rounded.
-/

import SampleShape.Yaml.Place
import SampleShape.Binary64.Arithmetic
import SampleShape.Value

namespace SampleShape
namespace Yaml

/-- The words for null. -/
def nullWords : List Text := ["", "~", "null", "Null", "NULL"]

/-- The words for true. -/
def trueWords : List Text := ["true", "True", "TRUE", "yes", "Yes", "YES", "on", "On", "ON"]

/-- The words for false. -/
def falseWords : List Text := ["false", "False", "FALSE", "no", "No", "NO", "off", "Off", "OFF"]

/-- The words that have a meaning of their own, which only a key can have, and the
tags of those meanings. -/
def reservedWords : List (Text × Text) :=
  [("<<", "tag:yaml.org,2002:merge"), ("=", "tag:yaml.org,2002:value")]

/-! ### Integers -/

/-- Whether a code point is a digit of a base, or an underscore. -/
def isPlace (base : Nat) (c : CodePoint) : Bool :=
  c.is '_' || c.hexDigit?.any (· < base)

/-- The digits of a row in which underscores do not count. -/
def digitsOf (t : Text) : Text := t.filter (!·.is '_')

/-- The number of a row of digits of a base. -/
def inBase (base : Nat) (t : Text) : Nat :=
  (digitsOf t).foldl (fun n c => base * n + c.hexDigit?.getD 0) 0

/-- The number after a mark for its base, if the rest of the word is digits of
that base. -/
def marked? (mark : Text) (base : Nat) (body : Text) : Option (Except Fault Nat) :=
  let places := body.drop mark.length
  if body.startsWith mark && !places.isEmpty && places.all (isPlace base) then
    some (if (digitsOf places).isEmpty then .error (.noDigits base) else .ok (inBase base places))
  else none

/-- The number of an octal row: a zero and further octal digits. -/
def octal? : Text → Option Nat
  | [] => none
  | c :: places =>
    if c.is '0' && !places.isEmpty && places.all (isPlace 8) then some (inBase 8 places) else none

/-- Whether a row of decimal digits starts with a digit other than zero. -/
def isDecimalRow : Text → Bool
  | [] => false
  | c :: rest => c.isDigit && !c.is '0' && rest.all (isPlace 10)

/-- The number of a decimal row. -/
def decimal? (body : Text) : Option (Except Fault Nat) :=
  if body = Text.ofString "0" then some (.ok 0)
  else if isDecimalRow body then
    some ((Decimal.readDigits (digitsOf body)).mapError .longInteger)
  else none

/-- The value of a place of base 60 after the first: one digit, or two of which
the first is at most five. -/
def sixtieth? : Text → Option Nat
  | [d] => if d.isDigit then some d.digit else none
  | [t, d] => if t.isDigit && t.digit ≤ 5 && d.isDigit then some (10 * t.digit + d.digit) else none
  | _ => none

/-- The number of places of base 60, of which the first is already known. -/
def inSixtieths (first : Nat) (places : List Nat) : Nat :=
  places.foldl (fun n p => 60 * n + p) first

/-- The number of a row of places of base 60. -/
def sexagesimal? (body : Text) : Option (Except Fault Nat) := do
  match body.splitOn ':' with
  | first :: place :: places =>
    let rest ← (place :: places).mapM sixtieth?
    if isDecimalRow first then
      some do
        let n ← (Decimal.readDigits (digitsOf first)).mapError .longInteger
        return inSixtieths n rest
    else none
  | _ => none

/-- The integer that a word is spelt like. -/
def integer? (word : Text) : Option (Except Fault Int) :=
  let (negative, body) := Decimal.readSign word
  let magnitude? := marked? "0b" 2 body <|> (octal? body).map .ok <|> decimal? body <|>
    marked? "0x" 16 body <|> sexagesimal? body
  magnitude?.map fun magnitude => magnitude.map (Decimal.signed negative)

/-! ### Other numbers -/

/-- The places at the front of a row, and what follows them. -/
def cutPlaces (t : Text) : Text × Text := (t.takeWhile (isPlace 10), t.dropWhile (isPlace 10))

/-- An exponent, which has a sign, or nothing. -/
def exponent? : Text → Option Int
  | [] => some 0
  | e :: s :: digits =>
    if (e.is 'e' || e.is 'E') && (s.is '+' || s.is '-') && !digits.isEmpty &&
        digits.all (·.isDigit) then
      some (Decimal.signed (s.is '-') (Text.toNat digits))
    else none
  | _ => none

/-- The numeral with the given digits before and after the point. -/
def numeral (negative : Bool) (whole fraction : Text) (exponent : Int) : Decimal :=
  ⟨negative, Text.toNat (digitsOf (whole ++ fraction)), exponent - (digitsOf fraction).length⟩

/-- Whether a row starts with a digit. -/
def startsWithDigit (t : Text) : Bool := t.head?.any (·.isDigit)

/-- A numeral with a point.  Without a digit before the point it has no sign. -/
def pointed? (word : Text) : Option Decimal := do
  let (negative, body) := Decimal.readSign word
  let (whole, rest) := cutPlaces body
  match rest with
  | point :: rest =>
    let (fraction, rest) := cutPlaces rest
    let exponent ← exponent? rest
    if point.is '.' && (startsWithDigit whole ||
        (body.length = word.length && whole.isEmpty && startsWithDigit fraction)) then
      some (numeral negative whole fraction exponent)
    else none
  | [] => none

/-- The sum of places of base 60, from the last to the first; the last one has the
given weight. -/
def weighted (sum : Binary64) (weight : Nat) : List Decimal → Except Fault Binary64
  | [] => .ok sum
  | place :: places =>
    match Binary64.ofNat weight with
    | .infinite _ => .error .tooManyPlaces
    | w => weighted (sum + .ofDecimal place * w) (60 * weight) places

/-- A number of places of base 60, the last of which has a point. -/
def pointedSexagesimal? (word : Text) : Option (Except Fault Binary64) := do
  let (negative, body) := Decimal.readSign word
  match body.splitOn '.' with
  | [whole, fraction] =>
    match (whole.splitOn ':').reverse with
    | last :: place :: places =>
      let rest := place :: places
      let first := rest.getLast?.getD []
      if (last :: rest.dropLast).all (fun p => (sixtieth? p).isSome) && startsWithDigit first &&
          first.all (isPlace 10) && fraction.all (isPlace 10) then
        let numerals := numeral false last fraction 0 :: rest.map (numeral false · [] 0)
        some ((weighted (.ofNat 0) 1 numerals).map fun x => if negative then -x else x)
      else none
    | _ => none
  | _ => none

/-- The infinite number or the value that is no number that a word stands for. -/
def special? (word : Text) : Option Binary64 :=
  let (negative, body) := Decimal.readSign word
  if body ∈ ([".inf", ".Inf", ".INF"] : List Text) then some (.infinite negative)
  else if word ∈ ([".nan", ".NaN", ".NAN"] : List Text) then some .nan
  else none

/-- The number with a point that a word is spelt like. -/
def real? (word : Text) : Option (Except Fault Binary64) :=
  (pointed? word).map (.ok ∘ .ofDecimal) <|> pointedSexagesimal? word <|> (special? word).map .ok

/-! ### Dates and moments -/

/-- Between `least` and `most` digits at the front, and what follows them. -/
def digits? (least most : Nat) (t : Text) : Option (Text × Text) :=
  let found := (t.take most).takeWhile (·.isDigit)
  if least ≤ found.length then some (found, t.drop found.length) else none

/-- What follows a character at the front. -/
def after? (c : Char) : Text → Option Text
  | [] => none
  | d :: rest => if d.is c then some rest else none

/-- What follows the mark between a date and a time of day. -/
def afterDate? (t : Text) : Option Text :=
  after? 'T' t <|> after? 't' t <|> if t.head?.any isBlank then some (t.dropWhile isBlank) else none

/-- The millionths that the digits after a point stand for. -/
def microseconds (t : Text) : Nat :=
  let digits := t.take 6
  Text.toNat digits * Nat.pow 10 (6 - digits.length)

/-- The fraction of a second, if there is one, and what follows. -/
def fraction (t : Text) : Nat × Text :=
  match after? '.' t with
  | none => (0, t)
  | some rest => (microseconds (rest.takeWhile (·.isDigit)), rest.dropWhile (·.isDigit))

/-- The clock at the end of a moment: none, the universal one, or one that is some
hours and minutes ahead of that or behind it. -/
def clock? (t : Text) : Option (Option Int) :=
  if t.isEmpty then some none
  else do
    let t := t.dropWhile isBlank
    if t = Text.ofString "Z" then return some 0
    else
      let (behind, rest) ← (after? '+' t).map (false, ·) <|> (after? '-' t).map (true, ·)
      let (hours, rest) ← digits? 1 2 rest
      let minutes ← if rest.isEmpty then some [] else do
        let (minutes, rest) ← digits? 2 2 (← after? ':' rest)
        if rest.isEmpty then some minutes else none
      return some (Decimal.signed behind (60 * Text.toNat hours + Text.toNat minutes))

/-- The moment that a word is spelt like after its date; it may be none of the
calendar. -/
def momentAfter? (year month day : Nat) (t : Text) : Option Moment := do
  let (hour, rest) ← digits? 1 2 (← afterDate? t)
  let (minute, rest) ← digits? 2 2 (← after? ':' rest)
  let (second, rest) ← digits? 2 2 (← after? ':' rest)
  let (microsecond, rest) := fraction rest
  let offset ← clock? rest
  return ⟨year, month, day, Text.toNat hour, Text.toNat minute, Text.toNat second, microsecond,
    offset⟩

/-- The value, unless something is wrong with its date. -/
def unlessFault (fault : Option Calendar.Fault) (v : Value) : Except Fault Value :=
  match fault with
  | none => .ok v
  | some f => .error (.calendar f)

/-- The date or the moment that a word is spelt like. -/
def date? (word : Text) : Option (Except Fault Value) := do
  let (y, rest) ← digits? 4 4 word
  let (m, rest) ← digits? 1 2 (← after? '-' rest)
  let (d, rest) ← digits? 1 2 (← after? '-' rest)
  let (year, month, day) := (Text.toNat y, Text.toNat m, Text.toNat d)
  if rest.isEmpty then
    if m.length = 2 && d.length = 2 then
      some (unlessFault (Calendar.dateFault? year month day) (.date year month day))
    else none
  else
    let moment ← momentAfter? year month day rest
    some (unlessFault moment.fault? (.moment moment))

/-! ### Words -/

/-- The value of a plain word at a place. -/
def scalar (here : Mark) (word : Text) : Except Fault Value :=
  if word ∈ nullWords then .ok .null
  else if word ∈ trueWords then .ok (.boolean true)
  else if word ∈ falseWords then .ok (.boolean false)
  else match reservedWords.lookup word, real? word, integer? word, date? word with
    | some tag, _, _, _ => .error (.unconstructible tag here)
    | none, some x, _, _ => x.map .real
    | none, none, some i, _ => i.map .integer
    | none, none, none, some d => d
    | none, none, none, none => .ok (.text word)

end Yaml
end SampleShape
