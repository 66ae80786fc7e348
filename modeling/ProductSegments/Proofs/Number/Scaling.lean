import ProductSegments.Number.Scaling
import ProductSegments.Proofs.Number.Whole

/-!
# Steps that are exact

A decimal number that is taken in steps need not become the number nearest to it, since its digits,
the power of ten and what they come to are rounded one after the other.  If the digits have no more
than 53 bits and the power is no greater than 10²², the first two are exact, and nothing but the last
rounding is left.

## Main results

* `Binary64.ten_eq` — the powers of ten that are exact.
* `Decimal.inSteps_eq_toBinary64` — **few digits and a small power give the nearest number.**
* `Decimal.isFinite_inSteps_of_whole` — whole numbers of 64 bits do not overflow.
-/

namespace ProductSegments

attribute [local irreducible] Binary64.limit Binary64.unit

namespace Binary64

/-! ### Signs -/

@[simp] theorem isFinite_neg (x : Binary64) : (-x).isFinite = x.isFinite := by
  cases x <;> rfl

theorem neg_round (num den : Nat) : -round false num den = round true num den := by
  unfold round
  split <;> rfl

/-! ### Exact powers -/

/-- A power of ten is a power of two times one of five, which has at most 53 bits up to 5²². -/
theorem onGrid_tenPow {k : Nat} (h : k ≤ 22) : OnGrid (tenPow k) := by
  have parts : tenPow k = 5 ^ k * twoPow k := Nat.mul_pow 5 2 k
  have few : 5 ^ k ≤ twoPow 53 :=
    Nat.le_trans (Nat.pow_le_pow_right (by decide) h) (by decide)
  rw [parts]
  exact (onGrid_of_le few).mul_twoPow k

theorem tenPow_lt_twoPow {k : Nat} (h : k ≤ 22) : tenPow k < twoPow 1024 :=
  calc tenPow k ≤ tenPow 22 := Nat.pow_le_pow_right (by decide) h
    _ ≤ twoPow 74 := by decide
    _ < twoPow 1024 := twoPow_lt_twoPow (by decide)

/-- **The powers of ten up to 10²² are exact.** -/
theorem ten_eq {k : Nat} (h : k ≤ 22) : ten k = .finite false (tenPow k * unit)
    ((onGrid_tenPow h).representable_mul_unit (tenPow_lt_twoPow h)) :=
  ofNat_of_onGrid (onGrid_tenPow h) (tenPow_lt_twoPow h)

section Exact

variable {m k : Nat}

theorem raised_eq (hm : m ≤ twoPow 53) (hk : k ≤ 22) :
    (ofNat m).raised k = ofRatio false (m * tenPow k) 1 := by
  have known : k ≤ maxTen := Nat.le_trans hk (by decide)
  rw [raised, if_pos known, ten_eq hk, ofNat_of_le hm]
  refine round_congr false unit_pos Nat.one_pos ?_
  rw [Nat.mul_one, Nat.mul_mul_mul_comm, Nat.mul_assoc (m * tenPow k)]

theorem lowered_eq (hm : m ≤ twoPow 53) (hk : k ≤ 22) :
    (ofNat m).lowered k = ofRatio false m (tenPow k) := by
  have known : k ≤ maxTen := Nat.le_trans hk (by decide)
  have divisor : tenPow k * unit ≠ 0 := Nat.ne_of_gt (Nat.mul_pos (tenPow_pos k) unit_pos)
  rw [lowered, if_pos known, ten_eq hk, ofNat_of_le hm]
  have quotient (p q : Nat) (hp : Representable p) (hq : Representable q) (ne_zero : q ≠ 0) :
      (finite false p hp : Binary64) / finite false q hq = round false (p * unit) q := if_neg ne_zero
  rw [quotient _ _ _ _ divisor]
  refine round_congr false (Nat.pos_of_ne_zero divisor) (tenPow_pos k) ?_
  rw [Nat.mul_assoc, Nat.mul_comm unit]

/-- **Few digits times a small power of ten are rounded once.** -/
theorem scaled_eq (hm : m ≤ twoPow 53) {e : Int} (he : e.natAbs ≤ 22) :
    (ofNat m).scaled e = ofRatio false (m * tenPow e.toNat) (tenPow (-e).toNat) := by
  cases e with
  | ofNat k =>
    rw [show (Int.ofNat k).toNat = k from rfl, show (-Int.ofNat k).toNat = 0 by simp, tenPow_zero]
    exact raised_eq hm he
  | negSucc k =>
    rw [Int.toNat_negSucc, tenPow_zero, Nat.mul_one, Int.neg_negSucc, Int.toNat_natCast]
    exact lowered_eq hm he

end Exact

/-- Nothing is scaled by the power with exponent zero. -/
theorem scaled_zero (m : Nat) : (ofNat m).scaled 0 = ofNat m := by
  have one : ten 0 = ofNat (twoPow 0) := rfl
  have times : m * twoPow 0 = m := Nat.mul_one m
  rw [show (ofNat m).scaled 0 = (ofNat m).raised 0 from rfl, raised, if_pos (Nat.zero_le _), one,
    ofNat_mul_twoPow m (.inr (by decide)), times]

end Binary64

namespace Decimal

variable {d : Decimal}

/-- **Few digits and a small power of ten give the nearest number**, since they are exact. -/
theorem inSteps_eq_toBinary64 (few : d.digits ≤ twoPow 53) (near : d.exponent.natAbs ≤ 22) :
    d.inSteps = d.toBinary64 := by
  rw [toBinary64_eq, inSteps, Binary64.scaled_eq few near, numerator, denominator]
  cases d.negative with
  | true => exact (if_pos rfl).trans (Binary64.neg_round _ _)
  | false => exact if_neg Bool.false_ne_true

/-- Whole numbers of 64 bits do not overflow. -/
theorem isFinite_inSteps_of_whole (negative : Bool) {n : Nat} (h : n ≤ twoPow 64) :
    (Decimal.mk negative n 0).inSteps.isFinite = true := by
  have finite : (Binary64.ofNat n).isFinite = true := by
    have bound : twoPow 64 ≤ twoPow 1023 := twoPow_le_twoPow (by decide)
    refine Binary64.isFinite_ofRatio false Nat.one_pos ?_
    rw [Nat.mul_one]
    exact Nat.le_trans h bound
  rw [inSteps, Binary64.scaled_zero]
  cases negative with
  | true => rw [if_pos rfl, Binary64.isFinite_neg, finite]
  | false => rw [if_neg Bool.false_ne_true, finite]

end Decimal

end ProductSegments
