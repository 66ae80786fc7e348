import ProductSegments.Number.Decimal
import ProductSegments.Proofs.Number.Nearest

/-!
# Decimal numbers are rounded once

The powers of ten far outside the finite values are never computed when a decimal number is turned
into a binary64 number.  The result is the one that computing them would give.

## Main definitions

* `Decimal.numerator`, `Decimal.denominator` — a decimal number as a fraction.

## Main results

* `Decimal.toBinary64_eq` — reading a decimal number rounds this fraction.
* `Decimal.isRounded_toBinary64` — so it gives the nearest value, or an infinity.
* `Decimal.toBinary64_congr` — decimal numbers of equal value are read alike.
* `Decimal.toBinary64_mul_tenPow` — zeros at the end of the digits are a power of ten.
-/

namespace ProductSegments

open Binary64 (limit unit IsRounded)

theorem tenPow_zero : tenPow 0 = 1 := rfl

theorem twoPow_mul_three_le_tenPow (k : Nat) : twoPow (3 * k) ≤ tenPow k := by
  have h : twoPow (3 * k) = 8 ^ k := Nat.pow_mul 2 3 k
  rw [h]
  exact Nat.pow_le_pow_left (by decide) k

namespace Binary64

theorem unit_pos : 0 < unit := by
  unfold unit
  generalize 1074 = k
  exact twoPow_pos k

/-- The quanta of a power of two are a power of two. -/
theorem twoPow_mul_unit {j k : Nat} (h : k = j + 1074) : twoPow j * unit = twoPow k := by
  unfold unit
  generalize 1074 = u at h
  rw [h, twoPow_add]

/-- Up to half the first magnitude that is too large there is no overflow. -/
theorem isFinite_ofRatio (negative : Bool) {num den : Nat} (hden : 0 < den)
    (h : num ≤ twoPow 1023 * den) : (ofRatio negative num den).isFinite = true := by
  -- the exponents are kept from being computed with
  obtain ⟨k, hk⟩ : ∃ k, k = 1023 + 1074 := ⟨_, rfl⟩
  have half : twoPow 1023 * unit = twoPow k := twoPow_mul_unit hk
  have fits : twoPow k < limit := by
    unfold limit
    generalize hj : 2098 = j
    exact twoPow_lt_twoPow (by omega)
  have le : nearest (num * unit) den ≤ twoPow k := by
    rw [← nearest_of_onGrid hden (onGrid_twoPow k)]
    refine nearest_mono hden hden (Nat.mul_le_mul_right den ?_)
    rw [← half, Nat.mul_right_comm]
    exact Nat.mul_le_mul_right unit h
  have lt := Nat.lt_of_le_of_lt le fits
  rw [ofRatio, round, dif_pos lt]
  rfl

/-- The finite values end below 2¹⁰²⁴. -/
theorem limit_eq : limit = twoPow 1024 * unit := by
  unfold limit
  generalize h : 2098 = k
  exact (twoPow_mul_unit (by omega)).symm

@[simp] theorem isNaN_ofRatio (negative : Bool) (num den : Nat) :
    (ofRatio negative num den).isNaN = false := isNaN_round ..

theorem ofRatio_congr (negative : Bool) {num den num' den' : Nat} (hden : 0 < den)
    (hden' : 0 < den') (h : num * den' = num' * den) :
    ofRatio negative num den = ofRatio negative num' den' := by
  refine round_congr negative hden hden' ?_
  rw [Nat.mul_right_comm, h, Nat.mul_right_comm]

theorem ofRatio_eq_infinity (negative : Bool) {num den : Nat} (hden : 0 < den)
    (h : twoPow 1024 * den ≤ num) : ofRatio negative num den = .infinity negative := by
  refine round_eq_infinity (le_nearest hden onGrid_limit ?_)
  rw [limit_eq, Nat.mul_right_comm]
  exact Nat.mul_le_mul_right _ h

/-- Up to half a quantum is read as zero. -/
theorem ofRatio_eq_zero (negative : Bool) {num den : Nat} (h : 2 * (num * unit) ≤ den) :
    ofRatio negative num den = round negative 0 1 := by
  have hzero : nearest (num * unit) den = nearest 0 1 := by
    rw [nearest_eq_zero h, nearest_zero]
  simp only [ofRatio, round, hzero]

end Binary64

namespace Decimal

/-- The numerator of a decimal number. -/
def numerator (d : Decimal) : Nat := d.digits * tenPow d.exponent.toNat

/-- The denominator of a decimal number: one for a whole number. -/
def denominator (d : Decimal) : Nat := tenPow (-d.exponent).toNat

theorem denominator_pos (d : Decimal) : 0 < d.denominator := tenPow_pos _

/-- Far above the finite values every digit string overflows. -/
theorem ofRatio_of_large {d : Decimal} (hdigits : d.digits ≠ 0) (h : 400 < d.exponent) :
    Binary64.ofRatio d.negative d.numerator d.denominator = .infinity d.negative := by
  refine Binary64.ofRatio_eq_infinity _ d.denominator_pos ?_
  have hone : d.denominator = 1 := by
    rw [denominator, show (-d.exponent).toNat = 0 by omega, tenPow_zero]
  rw [hone, Nat.mul_one, numerator]
  calc twoPow 1024 ≤ twoPow (3 * d.exponent.toNat) := twoPow_le_twoPow (by omega)
    _ ≤ tenPow d.exponent.toNat := twoPow_mul_three_le_tenPow _
    _ ≤ d.digits * tenPow d.exponent.toNat := Nat.le_mul_of_pos_left _ (Nat.pos_of_ne_zero hdigits)

/-- Far below the least positive value every digit string vanishes. -/
theorem ofRatio_of_small {d : Decimal} (h : d.exponent + d.digits.log2 < -401) :
    Binary64.ofRatio d.negative d.numerator d.denominator = .round d.negative 0 1 := by
  refine Binary64.ofRatio_eq_zero _ ?_
  obtain ⟨k, hk⟩ : ∃ k : Nat, d.exponent = -(k : Int) := ⟨(-d.exponent).toNat, by omega⟩
  have hnum : d.numerator = d.digits := by
    rw [numerator, show d.exponent.toNat = 0 by omega, tenPow_zero, Nat.mul_one]
  have hden : d.denominator = tenPow k := by rw [denominator, show (-d.exponent).toNat = k by omega]
  have hdigits : d.digits ≤ twoPow (d.digits.log2 + 1) := Nat.le_of_lt Nat.lt_log2_self
  rw [hnum, hden]
  calc 2 * (d.digits * unit) ≤ twoPow 1 * (twoPow (d.digits.log2 + 1) * unit) :=
        Nat.mul_le_mul_left _ (Nat.mul_le_mul_right _ hdigits)
    _ = twoPow (1 + (d.digits.log2 + 1 + 1074)) := by
        rw [Binary64.twoPow_mul_unit rfl, ← twoPow_add]
    _ ≤ twoPow (3 * k) := twoPow_le_twoPow (by omega)
    _ ≤ tenPow k := twoPow_mul_three_le_tenPow k

/-- **Reading a decimal number rounds it once**, whether or not its power of ten is computed. -/
theorem toBinary64_eq (d : Decimal) :
    d.toBinary64 = .ofRatio d.negative d.numerator d.denominator := by
  unfold toBinary64
  split
  · next hzero =>
    have hnum : d.numerator = 0 := by rw [numerator, hzero, Nat.zero_mul]
    rw [hnum, Binary64.ofRatio, Nat.zero_mul]
    exact Binary64.round_congr _ (by decide) d.denominator_pos (by rw [Nat.zero_mul, Nat.zero_mul])
  · next hdigits =>
    split
    · next large => exact (ofRatio_of_large hdigits large).symm
    · split
      · next small => exact (ofRatio_of_small small).symm
      · unfold numerator denominator
        cases d.exponent with
        | ofNat k =>
          rw [show (Int.ofNat k).toNat = k from rfl, show (-Int.ofNat k).toNat = 0 by simp, tenPow_zero]
        | negSucc k =>
          rw [Int.toNat_negSucc, tenPow_zero, Nat.mul_one, Int.neg_negSucc, Int.toNat_natCast]

/-- **A decimal number is read as the nearest value**, an infinity on overflow. -/
theorem isRounded_toBinary64 (d : Decimal) :
    IsRounded d.negative (d.numerator * unit) d.denominator d.toBinary64 := by
  rw [toBinary64_eq]
  exact Binary64.isRounded_round _ _ d.denominator_pos

@[simp] theorem isNaN_toBinary64 (d : Decimal) : d.toBinary64.isNaN = false := by
  rw [toBinary64_eq, Binary64.isNaN_ofRatio]

/-- Decimal numbers of equal value are read alike. -/
theorem toBinary64_congr {d e : Decimal} (hsign : d.negative = e.negative)
    (h : d.numerator * e.denominator = e.numerator * d.denominator) :
    d.toBinary64 = e.toBinary64 := by
  rw [toBinary64_eq, toBinary64_eq, hsign]
  exact Binary64.ofRatio_congr _ d.denominator_pos e.denominator_pos h

/-- Zeros at the end of the digits are a power of ten. -/
theorem numerator_mul_tenPow (negative : Bool) (digits k : Nat) (e : Int) :
    (Decimal.mk negative (digits * tenPow k) e).numerator *
        (Decimal.mk negative digits (e + k)).denominator
      = (Decimal.mk negative digits (e + k)).numerator *
        (Decimal.mk negative (digits * tenPow k) e).denominator := by
  simp only [numerator, denominator, Nat.mul_assoc, ← tenPow_add]
  congr 2
  omega

theorem toBinary64_mul_tenPow (negative : Bool) (digits k : Nat) (e : Int) :
    (Decimal.mk negative (digits * tenPow k) e).toBinary64
      = (Decimal.mk negative digits (e + k)).toBinary64 :=
  toBinary64_congr rfl (numerator_mul_tenPow negative digits k e)

end Decimal

end ProductSegments
