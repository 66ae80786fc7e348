import ProductSegments.Number.Decimal

/-!
# Scaling by powers of ten

The quick way from a decimal number to a binary64 number: digits and power of ten are rounded, and
then their product or quotient is.  The result need not be the number nearest to the decimal one.

## Main definitions

* `Binary64.ten` — the powers of ten.
* `Binary64.raised`, `Binary64.lowered`, `Binary64.scaled` — a number multiplied or divided by a power
  of ten.
* `Decimal.inSteps` — the number that is reached from a decimal number.
-/

namespace ProductSegments

namespace Binary64

/-- The exponent of the greatest power of ten among the finite values. -/
def maxTen : Nat := 308

/-- The value nearest to a power of ten. -/
def ten (exponent : Nat) : Binary64 := ofNat (tenPow exponent)

/-- The number multiplied by a power of ten.  Beyond the finite powers all but zero overflows. -/
def raised (x : Binary64) (exponent : Nat) : Binary64 :=
  if exponent ≤ maxTen then x * ten exponent
  else if x = zero then x
  else infinity false

/-- The number divided by a power of ten, in steps of the greatest finite one until it is zero. -/
def lowered (x : Binary64) (exponent : Nat) : Binary64 :=
  if exponent ≤ maxTen then x / ten exponent
  else if x = zero then x
  else lowered (x / ten maxTen) (exponent - maxTen)
termination_by exponent
decreasing_by
  simp only [maxTen] at *
  omega

/-- The number multiplied by the power of ten with a signed exponent. -/
def scaled (x : Binary64) : Int → Binary64
  | .ofNat k => x.raised k
  | .negSucc k => x.lowered (k + 1)

end Binary64

/-- The binary64 number that is reached from a decimal number in steps, each of which is rounded. -/
def Decimal.inSteps (d : Decimal) : Binary64 :=
  let x := (Binary64.ofNat d.digits).scaled d.exponent
  if d.negative then -x else x

end ProductSegments
