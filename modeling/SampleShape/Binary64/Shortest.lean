/-
# The shortest numeral of a binary number

A binary number is written with the fewest significant digits that read back as
the same number, and among those with the digits nearest to it; a tie goes to
the even last digit.

The reals that read back as `m · 2 ^ e` form an interval around it: half a step
up, and half a step down, or a quarter where `m` is the least significand of its
exponent.  Its ends belong to it when `m` is even.  With `n` digits the decimals
near the number form a grid; if a point of the grid lies in the interval, so does
one of the number's two neighbours on the grid.  So the grids of 1, 2, … 17
digits are tried in turn.
-/

import SampleShape.Binary64

namespace SampleShape
namespace Binary64

/-- Whether `10 ^ p ≤ m · 2 ^ e`. -/
def reaches (m : Nat) (e p : Int) : Bool :=
  Nat.pow 10 p.toNat <<< (-e).toNat ≤ (m <<< e.toNat) * Nat.pow 10 (-p).toNat

/-- The exponent of the leading decimal digit of `m · 2 ^ e`, for a positive `m`. -/
def leadingExponent (m : Nat) (e : Int) : Int :=
  let guess : Int := ((m.log2 : Int) + e) * 30103 / 100000
  if reaches m e (guess + 1) then guess + 1
  else if reaches m e guess then guess
  else guess - 1

/-- The neighbour of `m · 2 ^ e` on the grid of the multiples of `10 ^ s` that
reads back, the nearer of the two where both do. -/
def onGrid? (m : Nat) (e s : Int) : Option Nat :=
  -- both sides in quarters of `2 ^ e`, brought to a common denominator
  let unit := (4 * Nat.pow 10 s.toNat) <<< (-e).toNat
  let real (quarters : Nat) := (quarters <<< e.toNat) * Nat.pow 10 (-s).toNat
  let value := real (4 * m)
  let low := real (if m = 1 <<< 52 && minExponent < e then 4 * m - 1 else 4 * m - 2)
  let high := real (4 * m + 2)
  let readsBack (c : Nat) :=
    if m % 2 = 0 then low ≤ c * unit && c * unit ≤ high else low < c * unit && c * unit < high
  let below := value / unit
  let above := below + 1
  let down := value - below * unit
  let up := above * unit - value
  match readsBack below, readsBack above with
  | true, true => some (if down < up || (down == up && below % 2 == 0) then below else above)
  | true, false => some below
  | false, true => some above
  | false, false => none

/-- Tries grids of more and more digits, `count` of them; `s` is the exponent of
the last digit on the first grid. -/
def shortestFrom (m : Nat) (e : Int) : Nat → Int → Nat × Int
  | 0, s => (m, s)
  | count + 1, s =>
    match onGrid? m e s with
    | some c => (c, s)
    | none => shortestFrom m e count (s - 1)

/-- The coefficient and the power of ten of the shortest numeral of a positive
number. -/
def shortest (m : Nat) (e : Int) : Nat × Int :=
  let (c, s) := shortestFrom m e 17 (leadingExponent m e)
  Decimal.stripZeros 17 c s

/-- The digits of a numeral whose leading digit has exponent `x`, written out
with a decimal point: at least one digit stands on either side of it. -/
def positional (digits : Text) (x : Int) : Text :=
  let zeros (n : Nat) : Text := .times n "0"
  if x < 0 then .concat ["0.", zeros (-x - 1).toNat, digits]
  else
    let whole := digits.take (x.toNat + 1)
    let fraction := digits.drop (x.toNat + 1)
    .concat [whole, zeros (x.toNat + 1 - digits.length), ".",
      if fraction.isEmpty then "0" else fraction]

/-- The digits of a numeral whose leading digit has exponent `x`, with one digit
before the point and an exponent of at least two digits. -/
def scientific (digits : Text) (x : Int) : Text :=
  let fraction := digits.drop 1
  let exponent := Text.ofNat x.natAbs
  .concat [digits.take 1, if fraction.isEmpty then [] else .concat [".", fraction],
    if x < 0 then "e-" else "e+", if exponent.length < 2 then "0" else [], exponent]

/-- The text of a number.  Exponents of the leading digit from -4 to 15 are
written out. -/
def toText : Binary64 → Text
  | .nan => "nan"
  | .infinite negative => if negative then "-inf" else "inf"
  | .finite negative m e =>
    let sign : Text := if negative then "-" else []
    if m = 0 then .concat [sign, "0.0"]
    else
      let (c, s) := shortest m e
      let digits := Text.ofNat c
      let x : Int := s + digits.length - 1
      .concat [sign, if -4 ≤ x && x < 16 then positional digits x else scientific digits x]

end Binary64
end SampleShape
