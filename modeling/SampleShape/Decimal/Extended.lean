/-
# Extended decimals

The decimals of arbitrary precision have, beside the numerals, two infinities and
values that are no number.  A value that is no number has a sign, may signal, and
carries a payload.

A decimal is read from text with blanks around it and underscores within it, in
the digits of any script and in letters of either case.  It is written so that the
text gives back coefficient and exponent: in plain notation when the exponent is
not positive and at most five zeros follow the point, and otherwise with one digit
before the point and an exponent.
-/

import SampleShape.Decimal
import SampleShape.Text.DecimalDigit

namespace SampleShape

namespace Decimal

/-- The sign of a numeral as it is written. -/
def signText (negative : Bool) : Text := if negative then "-" else []

/-- Digits with a point after the first `place` of them, filled up with zeros. -/
def pointText (digits : Text) (place : Int) : Text :=
  if place ≤ 0 then .concat ["0.", .times (-place).toNat "0", digits]
  else if (digits.length : Int) ≤ place then
    .concat [digits, .times (place - digits.length).toNat "0"]
  else .concat [digits.take place.toNat, ".", digits.drop place.toNat]

/-- The text of a numeral. -/
def toText (d : Decimal) : Text :=
  let digits := Text.ofNat d.coefficient
  let leading : Int := d.exponent + digits.length
  if d.exponent ≤ 0 ∧ -6 < leading then .concat [signText d.negative, pointText digits leading]
  else
    let exponent := leading - 1
    let exponentText : Text :=
      if exponent = 0 then []
      else .concat [if 0 < exponent then "E+" else "E", .ofInt exponent]
    .concat [signText d.negative, pointText digits 1, exponentText]

end Decimal

/-- A decimal, one of the infinities, or a value that is no number. -/
inductive ExtendedDecimal where
  | finite (d : Decimal)
  | infinite (negative : Bool)
  | nan (negative signaling : Bool) (payload : Nat)
  deriving DecidableEq

namespace ExtendedDecimal

/-- The text of an extended decimal. -/
def toText : ExtendedDecimal → Text
  | .finite d => d.toText
  | .infinite negative => .concat [Decimal.signText negative, "Infinity"]
  | .nan negative signaling payload =>
    .concat [Decimal.signText negative, if signaling then "sNaN" else "NaN",
      if payload = 0 then [] else .ofNat payload]

/-- The blanks that may stand around a numeral. -/
def isBlank (c : CodePoint) : Bool :=
  (0x09 ≤ c.val && c.val ≤ 0x0D) || (0x1C ≤ c.val && c.val ≤ 0x20) ||
    (0x2000 ≤ c.val && c.val ≤ 0x200A) ||
    [0x85, 0xA0, 0x1680, 0x2028, 0x2029, 0x202F, 0x205F, 0x3000].contains c.val

/-- A text without the blanks around it. -/
def trim (t : Text) : Text := ((t.dropWhile isBlank).reverse.dropWhile isBlank).reverse

/-- The plain spelling of a numeral: no blanks around it, no underscores, ASCII
digits and small letters. -/
def plain (t : Text) : Text :=
  ((trim t).filter (!·.is '_')).map fun c =>
    match c.decimalDigit? with
    | some n => .ofNat (0x30 + n)
    | none => c.toLower

/-- The value that a word beside the numerals stands for, without its sign. -/
def ofWord? (negative : Bool) (word : Text) : Option ExtendedDecimal :=
  let payload? (front : String) : Option Nat :=
    let digits := word.drop front.length
    if word.startsWith front && digits.all (·.isDigit) then some (Text.toNat digits) else none
  if word = Text.ofString "inf" || word = Text.ofString "infinity" then some (.infinite negative)
  else (payload? "nan").map (.nan negative false) <|> (payload? "snan").map (.nan negative true)

/-- Reads a whole text. -/
def read? (t : Text) : Option ExtendedDecimal :=
  match Decimal.read? (plain t) with
  | some d => some (.finite d)
  | none =>
    let (negative, word) := Decimal.readSign (plain t)
    ofWord? negative word

end ExtendedDecimal
end SampleShape
