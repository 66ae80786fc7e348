import ProductSegments.Number.Binary64

/-!
# Shortest digits

The digits of a finite number are the fewest that read back to it; of several digit strings of
that length the one nearest to the number is taken.

## Main definitions

* `Digits` — a positive decimal number as digits and the place of its point.
* `Tie` — which of two equally near digit strings is taken.
* `Shortest.readsBack` — a decimal number rounds to the given one.
* `Shortest.ofQuanta` — the shortest digits of a positive number of quanta.
-/

namespace ProductSegments

/-- The number `0.d₁d₂…dₖ · 10 ^ exponent`, where `d₁…dₖ` are the `count` digits of `value`. -/
structure Digits where
  value : Nat
  count : Nat
  exponent : Int
  deriving DecidableEq, Repr

/-- Which of two equally near digit strings is taken. -/
inductive Tie where
  /-- The larger one. -/
  | up
  /-- The one whose last digit is even. -/
  | even
  deriving DecidableEq, Repr

namespace Shortest

open Binary64 (spacing unit)

/-- The exponent `e` with `10 ^ (e - 1) ≤ quanta / unit < 10 ^ e`. -/
def exponentOf (quanta : Nat) : Int :=
  let whole := quanta / unit
  if whole ≠ 0 then (Nat.toDigits 10 whole).length
  else 1 - (((List.range 400).find? fun j => unit ≤ quanta * tenPow j).getD 0 : Int)

/-- The decimal number `num / den` rounds to `quanta`: it lies at most half the way to either
neighbour, and on that border only if the significand of `quanta` is even. -/
def readsBack (quanta num den : Nat) : Bool :=
  let gap := spacing quanta
  let gapBelow := if gap ≠ 1 ∧ quanta / gap = twoPow 52 then gap / 2 else gap
  let place := 2 * num * unit
  let low := (2 * quanta - gapBelow) * den
  let high := (2 * quanta + gap) * den
  if quanta / gap % 2 = 0 then low ≤ place && place ≤ high else low < place && place < high

/-- The digit string of `count` digits nearest to `quanta` that reads back to it, if there is one.
Only the two points of the grid of `count` digits around the number can be nearest. -/
def withCount? (tie : Tie) (quanta count : Nat) : Option Digits :=
  let exponent := exponentOf quanta
  let stretch := tenPow (count - exponent).toNat
  let shrink := tenPow (exponent - count).toNat
  let num := quanta * stretch
  let den := unit * shrink
  let below := num / den
  let excess := num % den
  let above := excess * 2 > den || (excess * 2 == den && match tie with
    | .up => true
    | .even => below % 2 == 1)
  let fits (value : Nat) := readsBack quanta (value * shrink) stretch
  let digits (value : Nat) : Digits :=
    if value = tenPow count then ⟨1, 1, exponent + 1⟩ else ⟨value, count, exponent⟩
  let near := if above then below + 1 else below
  let far := if above then below else below + 1
  if fits near then some (digits near)
  else if fits far && far ≠ 0 then some (digits far)
  else none

/-- The shortest digits of a positive number of quanta.  Seventeen digits always read back. -/
def ofQuanta (tie : Tie) (quanta : Nat) : Digits :=
  ((List.range' 1 17).findSome? (withCount? tie quanta)).getD ⟨0, 1, 0⟩

end Shortest

end ProductSegments
