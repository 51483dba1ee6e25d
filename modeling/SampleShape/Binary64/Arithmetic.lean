/-
# Sums and products

The sum and the product of two finite numbers are the exact ones, rounded once:
both have the form `m · 2 ^ e` with integers `m` and `e`, and `ofScaled` rounds
that.  An exact sum of zero is negative only if both summands are.
-/

import SampleShape.Binary64

namespace SampleShape
namespace Binary64

/-- The number nearest to `± m · 2 ^ e`. -/
def ofScaled (negative : Bool) (m : Nat) (e : Int) : Binary64 :=
  if m = 0 then .finite negative 0 minExponent
  else if 0 ≤ e then ofFraction negative (m <<< e.toNat) 1
  else ofFraction negative m (1 <<< (-e).toNat)

/-- The number nearest to a natural number. -/
def ofNat (n : Nat) : Binary64 := ofScaled false n 0

/-- Whether the sign is a minus. -/
def isNegative : Binary64 → Bool
  | .nan => false
  | .infinite negative => negative
  | .finite negative _ _ => negative

/-- The number with the other sign. -/
def neg : Binary64 → Binary64
  | .nan => .nan
  | .infinite negative => .infinite (!negative)
  | .finite negative m e => .finite (!negative) m e

/-- The sum. -/
def add : Binary64 → Binary64 → Binary64
  | .nan, _ => .nan
  | _, .nan => .nan
  | .infinite a, .infinite b => if a = b then .infinite a else .nan
  | .infinite a, _ => .infinite a
  | _, .infinite b => .infinite b
  | .finite a m e, .finite b n f =>
    let low := min e f
    let sum := Decimal.signed a (m <<< (e - low).toNat) +
      Decimal.signed b (n <<< (f - low).toNat)
    if sum = 0 then .finite (a && b) 0 minExponent
    else ofScaled (sum < 0) sum.natAbs low

/-- The product. -/
def mul : Binary64 → Binary64 → Binary64
  | .nan, _ => .nan
  | _, .nan => .nan
  | .infinite a, y => if y.isZero then .nan else .infinite (a != y.isNegative)
  | x, .infinite b => if x.isZero then .nan else .infinite (x.isNegative != b)
  | .finite a m e, .finite b n f => ofScaled (a != b) (m * n) (e + f)

instance : Neg Binary64 := ⟨neg⟩

instance : Add Binary64 := ⟨add⟩

instance : Mul Binary64 := ⟨mul⟩

end Binary64
end SampleShape
