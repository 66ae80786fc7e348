import ProductSegments.Number.Binary64

/-!
# Backoff

How often a failed attempt is repeated, and how long to wait before each repetition.

## Main definitions

* `Catalog.Backoff` — a policy.
* `Catalog.Backoff.delay` — the wait before a repetition, in milliseconds.
-/

namespace ProductSegments

namespace Binary64

/-- `result` times `base ^ n`, by squaring; each product is rounded. -/
def powerFrom (result base : Binary64) (n : Nat) : Binary64 :=
  let result := if n % 2 = 1 then result * base else result
  if n / 2 = 0 then result else powerFrom result (base * base) (n / 2)
termination_by n

/-- A power; one with a negative exponent is the reciprocal of the positive power. -/
def power (base : Binary64) (exponent : Int) : Binary64 :=
  let result := powerFrom one base exponent.natAbs
  if exponent < 0 then result.reciprocal else result

end Binary64

namespace Catalog

/-- A policy of repetitions.  Durations are in nanoseconds. -/
structure Backoff where
  /-- How many times a failed attempt is repeated. -/
  maxRetries : UInt32
  /-- The wait before the first repetition. -/
  initialDelay : Nat
  /-- The longest wait. -/
  maxDelay : Nat
  /-- The ratio of a wait to the one before it. -/
  multiplier : Binary64

namespace Backoff

/-- The number of nanoseconds in a millisecond. -/
def millisecond : Nat := 1000000

/-- Three repetitions, after half a second, one second and two, never after more than five. -/
def standard : Backoff := ⟨3, 500 * millisecond, 5000 * millisecond, .ofNat 2⟩

/-- No repetition. -/
def none : Backoff := { standard with maxRetries := 0 }

/-- The exponent of the multiplier for an attempt.  It has 32 bits with a sign, so attempts from
2³¹ on have negative exponents. -/
def exponent (attempt : UInt32) : Int := attempt.toInt32.toInt

/-- The wait after a failed attempt, counted from zero, in whole milliseconds. -/
def delay (b : Backoff) (attempt : UInt32) : Nat :=
  let initial : Binary64 := .ofNat (b.initialDelay / millisecond)
  let longest : Binary64 := .ofNat (b.maxDelay / millisecond)
  ((initial * b.multiplier.power (exponent attempt)).min longest).truncate (UInt64.size - 1)

/-- A failed attempt, counted from zero, is repeated. -/
def allows (b : Backoff) (attempt : UInt32) : Bool := attempt < b.maxRetries

end Backoff

end Catalog

end ProductSegments
