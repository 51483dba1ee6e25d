/-
# Decimal numerals

A decimal is a sign, a coefficient and a power of ten, as a numeral spells
them.  Two decimals that differ in trailing zeros are different numerals of
one number; `Decimal.sameNumber` compares the numbers.
-/

import SampleShape.Text

namespace SampleShape

/-- The numeral `± coefficient · 10 ^ exponent`. -/
structure Decimal where
  negative : Bool
  coefficient : Nat
  exponent : Int
  deriving DecidableEq

/-- An integer that has too many decimal digits: to be read, where their number is
known beforehand, or to be written. -/
inductive LongInteger where
  | toRead (digits : Nat)
  | toWrite

namespace LongInteger

/-- The largest number of digits of an integer. -/
def maxDigits : Nat := 4300

/-- The part of the wording that tells the number of digits. -/
def count : LongInteger → Text
  | .toRead digits => .concat [": value has ", .ofNat digits, " digits"]
  | .toWrite => []

/-- The wording of the refusal. -/
def message (l : LongInteger) : Text :=
  .concat ["Exceeds the limit (", .ofNat maxDigits, " digits) for integer string conversion",
    l.count, "; use sys.set_int_max_str_digits() to increase the limit"]

end LongInteger

namespace Decimal

/-- The number of a row of digits, unless it is too long. -/
def readDigits (digits : Text) : Except LongInteger Nat :=
  if LongInteger.maxDigits < digits.length then .error (.toRead digits.length)
  else .ok (Text.toNat digits)

/-- The number with the given sign. -/
def signed (negative : Bool) (n : Nat) : Int := if negative then -(n : Int) else n

/-- The digits of an integer with its sign, unless they are too many. -/
def writeInt (i : Int) : Except LongInteger Text :=
  if LongInteger.maxDigits < (Text.ofNat i.natAbs).length then .error .toWrite
  else .ok (Text.ofInt i)

/-- The numeral of an integer. -/
def ofInt (i : Int) : Decimal := ⟨i < 0, i.natAbs, 0⟩

/-- Removes up to `fuel` trailing zeros from a coefficient. -/
def stripZeros : Nat → Nat → Int → Nat × Int
  | 0, c, e => (c, e)
  | fuel + 1, c, e => if c % 10 = 0 then stripZeros fuel (c / 10) (e + 1) else (c, e)

/-- The numeral of the same number without trailing zeros; zero has no sign. -/
def reduced (d : Decimal) : Decimal :=
  if d.coefficient = 0 then ⟨false, 0, 0⟩
  else
    let (c, e) := stripZeros d.coefficient.log2 d.coefficient d.exponent
    ⟨d.negative, c, e⟩

/-- Whether two numerals stand for one number. -/
def sameNumber (a b : Decimal) : Bool := a.reduced = b.reduced

/-- A sign in front of a numeral, if there is one. -/
def readSign : Text → Bool × Text
  | [] => (false, [])
  | c :: rest =>
    if c.is '-' then (true, rest)
    else if c.is '+' then (false, rest)
    else (false, c :: rest)

/-- An exponent mark with its integer, all of the remaining text. -/
def readExponent? : Text → Option Int
  | [] => some 0
  | c :: rest =>
    let (negative, digits) := readSign rest
    if (c.is 'e' || c.is 'E') && !digits.isEmpty && digits.all (·.isDigit) then
      some (signed negative (Text.toNat digits))
    else none

/-- The digits after a decimal point, if there is one, and what follows. -/
def readFraction : Text → Text × Text
  | [] => ([], [])
  | c :: rest =>
    if c.is '.' then (rest.takeWhile (·.isDigit), rest.dropWhile (·.isDigit)) else ([], c :: rest)

/-- Reads a whole text as a numeral: a sign, digits with or without a decimal
point, and an exponent, of which only some digits are required. -/
def read? (t : Text) : Option Decimal := do
  let (negative, unsigned) := readSign t
  let whole := unsigned.takeWhile (·.isDigit)
  let (fraction, rest) := readFraction (unsigned.dropWhile (·.isDigit))
  let exponent ← readExponent? rest
  if whole.isEmpty && fraction.isEmpty then none
  else some ⟨negative, Text.toNat (whole ++ fraction), exponent - fraction.length⟩

end Decimal
end SampleShape
