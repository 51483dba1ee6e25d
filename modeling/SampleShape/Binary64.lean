/-
# Binary floating-point numbers of 64 bits

A number read from a sample file with a fraction or an exponent becomes the
nearest binary number `significand · 2 ^ exponent` whose significand is below
`2 ^ 53` and whose exponent lies between -1074 and 971; a tie goes to the even
significand.  Past the largest such number lies infinity.  The arithmetic is
exact: every step is on natural numbers.
-/

import SampleShape.Decimal

namespace SampleShape

/-- A number of the 64-bit binary format.  In a finite one, the significand is
at least `2 ^ 52` unless the exponent is the least one. -/
inductive Binary64 where
  | nan
  | infinite (negative : Bool)
  | finite (negative : Bool) (significand : Nat) (exponent : Int)
  deriving DecidableEq

namespace Binary64

/-- The least exponent. -/
def minExponent : Int := -1074

/-- The largest exponent. -/
def maxExponent : Int := 971

/-- The integer nearest to `num / den`; a tie goes to the even one. -/
def roundDiv (num den : Nat) : Nat :=
  let q := num / den
  let r := num % den
  if den < 2 * r || (den == 2 * r && q % 2 == 1) then q + 1 else q

/-- The fraction `num / den` divided by `2 ^ e`. -/
def shift (num den : Nat) (e : Int) : Nat × Nat :=
  if 0 ≤ e then (num, den <<< e.toNat) else (num <<< (-e).toNat, den)

/-- The exponent for which a positive fraction has a significand of 53 bits, or
the least exponent where that one is smaller. -/
def exponentOf (num den : Nat) : Int :=
  let e : Int := (num.log2 : Int) - den.log2 - 52
  let (n, d) := shift num den e
  max minExponent (if n / d < 1 <<< 52 then e - 1 else e)

/-- The number nearest to a positive fraction. -/
def ofFraction (negative : Bool) (num den : Nat) : Binary64 :=
  let e := exponentOf num den
  let (n, d) := shift num den e
  let m := roundDiv n d
  let (m, e) := if m = 1 <<< 53 then (1 <<< 52, e + 1) else (m, e)
  if maxExponent < e then .infinite negative else .finite negative m e

/-- The number nearest to a decimal.  A decimal whose leading digit is far
outside the range of the format needs no arithmetic. -/
def ofDecimal (d : Decimal) : Binary64 :=
  let magnitude : Int := (Nat.toDigits 10 d.coefficient).length + d.exponent
  if d.coefficient = 0 || magnitude < -330 then .finite d.negative 0 minExponent
  else if 310 < magnitude then .infinite d.negative
  else if 0 ≤ d.exponent then ofFraction d.negative (d.coefficient * Nat.pow 10 d.exponent.toNat) 1
  else ofFraction d.negative d.coefficient (Nat.pow 10 (-d.exponent).toNat)

/-- The exact decimal value of a finite number. -/
def toDecimal? : Binary64 → Option Decimal
  | .finite negative m e =>
    some (if 0 ≤ e then ⟨negative, m <<< e.toNat, 0⟩
      else ⟨negative, m * Nat.pow 5 (-e).toNat, e⟩)
  | _ => none

/-- The integer that a finite number without fraction is. -/
def toInt? : Binary64 → Option Int
  | .finite negative m e =>
    let magnitude? : Option Nat :=
      if 0 ≤ e then some (m <<< e.toNat)
      else if m % (1 <<< (-e).toNat) = 0 then some (m >>> (-e).toNat)
      else none
    magnitude?.map fun n => if negative then -(n : Int) else n
  | _ => none

/-- Whether the number is zero, of either sign. -/
def isZero : Binary64 → Bool
  | .finite _ 0 _ => true
  | _ => false

/-- Reads a numeral, or one of the words for the numbers that have none. -/
def read? (t : Text) : Option Binary64 :=
  if t = Text.ofString "nan" then some .nan
  else if t = Text.ofString "inf" then some (.infinite false)
  else if t = Text.ofString "-inf" then some (.infinite true)
  else (Decimal.read? t).map ofDecimal

end Binary64
end SampleShape
