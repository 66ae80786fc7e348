import Mathlib.Algebra.Order.Field.Basic
import Mathlib.Algebra.Order.Field.Rat
import Mathlib.Data.Rat.Cast.Order
import Mathlib.Tactic.Linarith
import Mathlib.Tactic.FieldSimp
import ProductSegments.Proofs.Number.Shortest

/-!
# No fewer digits read back

Of all digit strings that read back to a number, the one that is chosen has the fewest digits, and
of those with so many digits it is nearest to the number.  The argument is one about order: what reads
back is an interval around the number, and the digit strings of one length have no point strictly
between the two that are tried.

## Main definitions

* `Digits.toRat`, `Binary64.magnitude` — the numbers of digits and of quanta, as fractions.
* `Shortest.rounded` — the magnitude that a fraction rounds to.
* `Shortest.Fewest` — digits that read back, none fewer and none of so many nearer.

## Main results

* `Shortest.readsBack_iff` — the test for reading back is right.
* `Shortest.Spells.beside` — no digit string lies between the two that are tried.
* `Shortest.isSome_withCount?_of_spells` — if some digits of a length read back, some are found.
* `Shortest.fewest_ofQuanta` — the digits that are chosen are the fewest, and the nearest of them.
-/

namespace ProductSegments

attribute [local irreducible] Binary64.limit Binary64.unit

/-- The number that digits spell. -/
def Digits.toRat (d : Digits) : ℚ := d.value * 10 ^ (d.exponent - d.count)

/-- The number of a magnitude. -/
def Binary64.magnitude (quanta : Nat) : ℚ := quanta / Binary64.unit

theorem zpow_ten_eq (z : Int) : (10 : ℚ) ^ z = (tenPow z.toNat : ℚ) / (tenPow (-z).toNat : ℚ) := by
  cases z with
  | ofNat n => simp [tenPow]
  | negSucc n => simp [tenPow, zpow_negSucc]

theorem tenPow_mul_zpow (k : Nat) (z : Int) : (tenPow k : ℚ) * 10 ^ z = 10 ^ (z + k) := by
  rw [zpow_add₀ (by norm_num), zpow_natCast, mul_comm]
  simp [tenPow]

namespace Shortest

open Binary64 (unit spacing nearest OnGrid IsEven gapBelow magnitude)

/-! ### The test for reading back -/

/-- What rounds to a magnitude lies at most half the way to either neighbour, and on the middle only
if the magnitude is even. -/
theorem between_of_nearest {quanta num den : Nat} (hq : OnGrid quanta) (h : quanta ≠ 0)
    (hden : 0 < den) (rounds : nearest num den = quanta) :
    (2 * quanta - gapBelow quanta) * den ≤ 2 * num ∧
      2 * num ≤ (2 * quanta + spacing quanta) * den ∧
      ((2 * quanta - gapBelow quanta) * den = 2 * num ∨
        2 * num = (2 * quanta + spacing quanta) * den → IsEven quanta) := by
  have nearest := Binary64.isNearest_nearest num hden
  rw [rounds] at nearest
  obtain ⟨p, hp, hpq, hgap⟩ := hq.exists_previous h
  have above := nearest.le _ hq.next
  have below := nearest.le p hp
  have hprev : p * den + gapBelow quanta * den = quanta * den := by
    rw [← hgap, ← Nat.add_mul, hpq]
  have hnext : (quanta + spacing quanta) * den = quanta * den + spacing quanta * den :=
    Nat.add_mul ..
  have hs : 0 < spacing quanta * den := Nat.mul_pos (Binary64.spacing_pos _) hden
  have hg : 0 < gapBelow quanta * den := Nat.mul_pos (hq.gapBelow_pos h) hden
  rw [Nat.sub_mul, Nat.add_mul, Nat.mul_assoc]
  unfold Binary64.distance at above below
  rw [hnext] at above
  refine ⟨by omega, by omega, ?_⟩
  rintro (middle | middle)
  · refine nearest.isEven p hp (fun e => ?_) ?_
    · have := Binary64.spacing_pos p
      omega
    · unfold Binary64.distance
      omega
  · refine nearest.isEven _ hq.next (fun e => ?_) ?_
    · have := Binary64.spacing_pos quanta
      omega
    · unfold Binary64.distance
      rw [hnext]
      omega

/-- **The test for reading back is right.** -/
theorem readsBack_iff {quanta num den : Nat} (hq : OnGrid quanta) (h : quanta ≠ 0)
    (hden : 0 < den) : readsBack quanta num den = true ↔ nearest (num * unit) den = quanta := by
  refine ⟨nearest_of_readsBack hq hden, fun rounds => ?_⟩
  obtain ⟨lower, upper, middle⟩ := between_of_nearest hq h hden rounds
  have hplace : 2 * num * unit = 2 * (num * unit) := Nat.mul_assoc ..
  rw [readsBack_eq, hplace]
  split
  · next even => simp [lower, upper]
  · next odd =>
    have strict : ¬((2 * quanta - gapBelow quanta) * den = 2 * (num * unit) ∨
        2 * (num * unit) = (2 * quanta + spacing quanta) * den) := fun m => odd (middle m)
    rw [not_or] at strict
    rw [Bool.and_eq_true, decide_eq_true_eq, decide_eq_true_eq]
    exact ⟨Nat.lt_of_le_of_ne lower strict.1, Nat.lt_of_le_of_ne upper strict.2⟩

/-! ### Rounding fractions -/

/-- The magnitude that a fraction rounds to. -/
def rounded (x : ℚ) : Nat := nearest (x.num.toNat * unit) x.den

theorem rounded_div (num : Nat) {den : Nat} (hden : 0 < den) :
    rounded ((num : ℚ) / den) = nearest (num * unit) den := by
  refine Binary64.nearest_congr (Rat.den_pos _) hden ?_
  have pos : (0 : ℚ) < den := Nat.cast_pos.mpr hden
  have nonneg : 0 ≤ ((num : ℚ) / den).num :=
    Rat.num_nonneg.mpr (div_nonneg (Nat.cast_nonneg _) (Nat.cast_nonneg _))
  have cross : (((num : ℚ) / den).num : ℚ) * den = num * ((num : ℚ) / den).den := by
    rw [← div_eq_div_iff (by exact_mod_cast Rat.den_ne_zero _) (ne_of_gt pos), Rat.num_div_den]
  have cross : ((num : ℚ) / den).num.toNat * den = num * ((num : ℚ) / den).den := by
    zify
    rw [Int.toNat_of_nonneg nonneg]
    exact_mod_cast cross
  rw [Nat.mul_right_comm, cross, Nat.mul_right_comm]

/-- Rounding keeps the order of fractions. -/
theorem rounded_mono {x y : ℚ} (hx : 0 ≤ x) (h : x ≤ y) : rounded x ≤ rounded y := by
  refine Binary64.nearest_mono (Rat.den_pos _) (Rat.den_pos _) ?_
  have hle := (Rat.le_iff x y).mp h
  have hle : x.num.toNat * y.den ≤ y.num.toNat * x.den := by
    zify
    rw [Int.toNat_of_nonneg (Rat.num_nonneg.mpr hx),
      Int.toNat_of_nonneg (Rat.num_nonneg.mpr (le_trans hx h))]
    exact hle
  rw [Nat.mul_right_comm, Nat.mul_right_comm _ unit]
  exact Nat.mul_le_mul_right _ hle

theorem rounded_magnitude {quanta : Nat} (hq : OnGrid quanta) :
    rounded (magnitude quanta) = quanta := by
  rw [magnitude, rounded_div _ Binary64.unit_pos]
  exact Binary64.nearest_of_onGrid Binary64.unit_pos hq

/-- What lies between two fractions that round to a magnitude does so too. -/
theorem rounded_eq_of_between {quanta : Nat} {x y z : ℚ} (hx : 0 ≤ x) (hxy : x ≤ y) (hyz : y ≤ z)
    (first : rounded x = quanta) (last : rounded z = quanta) : rounded y = quanta :=
  Nat.le_antisymm (last ▸ rounded_mono (le_trans hx hxy) hyz) (first ▸ rounded_mono hx hxy)

theorem toRat_nonneg (d : Digits) : 0 ≤ d.toRat :=
  mul_nonneg (Nat.cast_nonneg _) (zpow_nonneg (by norm_num) _)

theorem toRat_eq_div (d : Digits) :
    d.toRat = ((d.decimal false).numerator : ℚ) / ((d.decimal false).denominator : ℚ) := by
  rw [Digits.toRat, zpow_ten_eq, Decimal.numerator, Decimal.denominator, Nat.cast_mul,
    mul_div_assoc]
  rfl

/-- Digits read back if their number rounds to the magnitude. -/
theorem spells_iff {quanta : Nat} {d : Digits} : Spells quanta d ↔
    (Nat.toDigits 10 d.value).length = d.count ∧ rounded d.toRat = quanta := by
  rw [toRat_eq_div, rounded_div _ (Decimal.denominator_pos _)]
  exact ⟨fun h => ⟨h.length, h.nearest_eq⟩, fun h => ⟨h.1, h.2⟩⟩

/-! ### The two strings that are tried -/

section Tried

variable {quanta count : Nat}

/-- A unit in the last of `count` digits. -/
def ulp (quanta count : Nat) : ℚ := 10 ^ (exponentOf quanta - count)

theorem ulp_pos (quanta count : Nat) : 0 < ulp quanta count := zpow_pos (by norm_num) _

theorem ulp_eq (quanta count : Nat) :
    ulp quanta count = (shrink quanta count : ℚ) / (stretch quanta count : ℚ) := by
  rw [ulp, zpow_ten_eq, neg_sub]
  rfl

theorem mul_ulp_eq (value : Nat) : (value : ℚ) * ulp quanta count =
    ((value * shrink quanta count : Nat) : ℚ) / (stretch quanta count : ℚ) := by
  rw [ulp_eq, Nat.cast_mul, mul_div_assoc]

/-- A value fits if it rounds to the magnitude. -/
theorem fits_iff (hq : OnGrid quanta) (h : quanta ≠ 0) {value : Nat} :
    Fits quanta count value ↔ rounded (value * ulp quanta count) = quanta := by
  rw [mul_ulp_eq, rounded_div _ (stretch_pos ..)]
  exact readsBack_iff hq h (stretch_pos ..)

/-- By how much units and magnitude are stretched to become whole numbers. -/
def scale (quanta count : Nat) : ℚ := unit * stretch quanta count

theorem scale_pos (quanta count : Nat) : 0 < scale quanta count :=
  mul_pos (Nat.cast_pos.mpr Binary64.unit_pos) (Nat.cast_pos.mpr (stretch_pos ..))

theorem ulp_mul_scale :
    ulp quanta count * scale quanta count = ((unit * shrink quanta count : Nat) : ℚ) := by
  have hstretch : (stretch quanta count : ℚ) ≠ 0 := Nat.cast_ne_zero.mpr (stretch_pos ..).ne'
  rw [ulp_eq, scale, Nat.cast_mul]
  field_simp

theorem magnitude_mul_scale :
    magnitude quanta * scale quanta count = ((quanta * stretch quanta count : Nat) : ℚ) := by
  have hunit : (unit : ℚ) ≠ 0 := Nat.cast_ne_zero.mpr Binary64.unit_pos.ne'
  rw [magnitude, scale, Nat.cast_mul]
  field_simp

/-- Comparing with the magnitude is comparing whole numbers. -/
theorem mul_ulp_le_iff {value : Nat} : (value : ℚ) * ulp quanta count ≤ magnitude quanta ↔
    value * (unit * shrink quanta count) ≤ quanta * stretch quanta count := by
  rw [← mul_le_mul_iff_left₀ (scale_pos quanta count), mul_assoc, ulp_mul_scale,
    magnitude_mul_scale]
  norm_cast

/-- The magnitude lies between the two values. -/
theorem wholeDigits_le (quanta count : Nat) :
    (wholeDigits quanta count : ℚ) * ulp quanta count ≤ magnitude quanta :=
  mul_ulp_le_iff.mpr (Nat.div_mul_le_self ..)

theorem lt_wholeDigits_succ (quanta count : Nat) :
    magnitude quanta < ((wholeDigits quanta count + 1 : Nat) : ℚ) * ulp quanta count := by
  rw [← not_le, mul_ulp_le_iff, not_le]
  exact (Nat.div_lt_iff_lt_mul (unit_mul_shrink_pos ..)).mp (Nat.lt_succ_self _)

/-- **No digit string lies between the two that are tried**, whatever its exponent is. -/
theorem Spells.beside {d : Digits} (hd : Spells quanta d) (h : quanta ≠ 0) :
    d.toRat ≤ (wholeDigits quanta d.count : ℚ) * ulp quanta d.count ∨
      ((wholeDigits quanta d.count + 1 : Nat) : ℚ) * ulp quanta d.count ≤ d.toRat := by
  obtain ⟨hcount, lower, upper⟩ := hd.bounds h
  obtain ⟨first, last⟩ := wholeDigits_bounds h hcount
  have hpos : (0 : ℚ) < 10 ^ (d.exponent - d.count) := zpow_pos (by norm_num) _
  rcases lt_trichotomy d.exponent (exponentOf quanta) with below | same | above
  · -- the digits stay below the power of ten that the magnitude reaches
    left
    calc d.toRat ≤ (tenPow d.count : ℚ) * 10 ^ (d.exponent - d.count) := by
          refine mul_le_mul_of_nonneg_right ?_ (le_of_lt hpos)
          exact_mod_cast Nat.le_of_lt upper
      _ = 10 ^ (d.exponent - d.count + d.count) := tenPow_mul_zpow _ _
      _ ≤ 10 ^ (exponentOf quanta - d.count + (d.count - 1 : Nat)) :=
          zpow_le_zpow_right₀ (by norm_num) (by omega)
      _ = (tenPow (d.count - 1) : ℚ) * ulp quanta d.count := (tenPow_mul_zpow _ _).symm
      _ ≤ (wholeDigits quanta d.count : ℚ) * ulp quanta d.count := by
          refine mul_le_mul_of_nonneg_right ?_ (le_of_lt (ulp_pos ..))
          exact_mod_cast first
  · -- with the same exponent both are whole numbers of units
    have hd : d.toRat = (d.value : ℚ) * ulp quanta d.count := by rw [Digits.toRat, ulp, same]
    rw [hd]
    rcases Nat.lt_or_ge (wholeDigits quanta d.count) d.value with hlt | hge
    · right
      refine mul_le_mul_of_nonneg_right ?_ (le_of_lt (ulp_pos ..))
      exact_mod_cast hlt
    · left
      refine mul_le_mul_of_nonneg_right ?_ (le_of_lt (ulp_pos ..))
      exact_mod_cast hge
  · -- the digits reach the power of ten that the magnitude stays below
    right
    calc ((wholeDigits quanta d.count + 1 : Nat) : ℚ) * ulp quanta d.count
        ≤ (tenPow d.count : ℚ) * ulp quanta d.count := by
          refine mul_le_mul_of_nonneg_right ?_ (le_of_lt (ulp_pos ..))
          exact_mod_cast last
      _ = 10 ^ (exponentOf quanta - d.count + d.count) := tenPow_mul_zpow _ _
      _ ≤ 10 ^ (d.exponent - d.count + (d.count - 1 : Nat)) :=
          zpow_le_zpow_right₀ (by norm_num) (by omega)
      _ = (tenPow (d.count - 1) : ℚ) * 10 ^ (d.exponent - d.count) := (tenPow_mul_zpow _ _).symm
      _ ≤ d.toRat := by
          refine mul_le_mul_of_nonneg_right ?_ (le_of_lt hpos)
          exact_mod_cast lower

/-- If digits read back, so does one of the two strings that are tried. -/
theorem Spells.fits {d : Digits} (hd : Spells quanta d) (hq : OnGrid quanta) (h : quanta ≠ 0) :
    (d.toRat ≤ (wholeDigits quanta d.count : ℚ) * ulp quanta d.count ∧
        Fits quanta d.count (wholeDigits quanta d.count)) ∨
      (((wholeDigits quanta d.count + 1 : Nat) : ℚ) * ulp quanta d.count ≤ d.toRat ∧
        Fits quanta d.count (wholeDigits quanta d.count + 1)) := by
  have reads := (spells_iff.mp hd).2
  have itself := rounded_magnitude hq
  rcases hd.beside h with below | above
  · exact .inl ⟨below, (fits_iff hq h).mpr
      (rounded_eq_of_between (toRat_nonneg d) below (wholeDigits_le ..) reads itself)⟩
  · have nonneg : 0 ≤ magnitude quanta := div_nonneg (Nat.cast_nonneg _) (Nat.cast_nonneg _)
    exact .inr ⟨above, (fits_iff hq h).mpr
      (rounded_eq_of_between nonneg (le_of_lt (lt_wholeDigits_succ ..)) above itself reads)⟩

/-- **If some digits of a length read back, some are found.** -/
theorem isSome_withCount?_of_spells (tie : Tie) {d : Digits} (hd : Spells quanta d)
    (hq : OnGrid quanta) (h : quanta ≠ 0) : (withCount? tie quanta d.count).isSome = true := by
  have tried : Fits quanta d.count (near tie quanta d.count) ∨
      Fits quanta d.count (far tie quanta d.count) := by
    unfold near far
    rcases hd.fits hq h with ⟨-, fits⟩ | ⟨-, fits⟩ <;> split
    · exact .inr fits
    · exact .inl fits
    · exact .inl fits
    · exact .inr fits
  have nonzero : far tie quanta d.count ≠ 0 := by
    have := (wholeDigits_bounds h (hd.bounds h).1).1
    have := tenPow_pos (d.count - 1)
    unfold far
    split <;> omega
  rw [withCount?_eq]
  split
  · rfl
  · next misses =>
    have fits : readsBack quanta (far tie quanta d.count * shrink quanta d.count)
        (stretch quanta d.count) = true := tried.resolve_left misses
    rw [if_pos (by simp [fits, nonzero])]
    rfl

theorem toRat_digitsOf (value : Nat) :
    (digitsOf quanta count value).toRat = value * ulp quanta count := by
  unfold digitsOf
  split
  · next last =>
    rw [last, ulp, tenPow_mul_zpow, Digits.toRat, Nat.cast_one, one_mul]
    congr 1
    dsimp only
    omega
  · rfl

/-- The value that is tried first is at most half a unit away from the magnitude. -/
theorem abs_near_sub_le (tie : Tie) (quanta count : Nat) :
    2 * |(near tie quanta count : ℚ) * ulp quanta count - magnitude quanta| ≤ ulp quanta count := by
  obtain ⟨upper, lower⟩ := near_spec tie quanta count
  have upper : 2 * ((near tie quanta count : ℚ) * ((unit * shrink quanta count : Nat) : ℚ)) ≤
      2 * ((quanta * stretch quanta count : Nat) : ℚ) + ((unit * shrink quanta count : Nat) : ℚ) := by
    exact_mod_cast upper
  have lower : 2 * ((quanta * stretch quanta count : Nat) : ℚ) ≤
      2 * ((near tie quanta count : ℚ) * ((unit * shrink quanta count : Nat) : ℚ)) +
        ((unit * shrink quanta count : Nat) : ℚ) := by
    exact_mod_cast lower
  rw [← ulp_mul_scale, ← magnitude_mul_scale] at upper lower
  have hscale := scale_pos quanta count
  rw [← abs_two, ← abs_mul, abs_le]
  constructor
  · refine le_of_mul_le_mul_right ?_ hscale
    linarith
  · refine le_of_mul_le_mul_right ?_ hscale
    linarith

/-- So it is not farther from it than either of the two values. -/
theorem abs_near_sub_le_both (tie : Tie) (quanta count : Nat) :
    |(near tie quanta count : ℚ) * ulp quanta count - magnitude quanta| ≤
        magnitude quanta - wholeDigits quanta count * ulp quanta count ∧
      |(near tie quanta count : ℚ) * ulp quanta count - magnitude quanta| ≤
        ((wholeDigits quanta count + 1 : Nat) : ℚ) * ulp quanta count - magnitude quanta := by
  have half := abs_near_sub_le tie quanta count
  have below := wholeDigits_le quanta count
  have above := lt_wholeDigits_succ quanta count
  have apart : ((wholeDigits quanta count + 1 : Nat) : ℚ) * ulp quanta count =
      wholeDigits quanta count * ulp quanta count + ulp quanta count := by
    rw [Nat.cast_succ, add_mul, one_mul]
  rw [near] at half ⊢
  split at half
  · next up =>
    rw [if_pos up, abs_of_pos (by linarith)] at *
    constructor <;> linarith
  · next down =>
    rw [if_neg down, abs_of_nonpos (by linarith)] at *
    constructor <;> linarith

/-- **What is found is not farther from the magnitude than other digits of that length** that read
back. -/
theorem nearest_of_withCount? {tie : Tie} {d e : Digits} (he : Spells quanta e) (hq : OnGrid quanta)
    (h : quanta ≠ 0) (found : withCount? tie quanta e.count = some d) :
    |d.toRat - magnitude quanta| ≤ |e.toRat - magnitude quanta| := by
  have below := wholeDigits_le quanta e.count
  have above := lt_wholeDigits_succ quanta e.count
  obtain ⟨toBelow, toAbove⟩ := abs_near_sub_le_both tie quanta e.count
  rw [withCount?_eq] at found
  split at found
  · -- the nearer one of the two reads back
    obtain rfl := Option.some.inj found
    rw [toRat_digitsOf]
    rcases he.beside h with beyond | beyond
    · rw [abs_of_nonpos (a := e.toRat - _) (by linarith)]
      linarith
    · rw [abs_of_pos (a := e.toRat - _) (by linarith)]
      linarith
  · next misses =>
    -- all that reads back is on the side of the other one, and not nearer
    split at found
    · obtain rfl := Option.some.inj found
      rw [toRat_digitsOf]
      rcases he.fits hq h with ⟨beyond, fits⟩ | ⟨beyond, fits⟩
      · have other : far tie quanta e.count = wholeDigits quanta e.count := by
          unfold far
          split
          · rfl
          · next down => exact absurd (by rw [near, if_neg down]; exact fits) misses
        rw [other, abs_of_nonpos (by linarith), abs_of_nonpos (by linarith)]
        linarith
      · have other : far tie quanta e.count = wholeDigits quanta e.count + 1 := by
          unfold far
          split
          · next up => exact absurd (by rw [near, if_pos up]; exact fits) misses
          · rfl
        rw [other, abs_of_pos (by linarith), abs_of_pos (by linarith)]
        linarith
    · cases found

end Tried

/-! ### The digits that are chosen -/

/-- Digits that read back to a magnitude, none fewer and none of so many nearer. -/
structure Fewest (quanta : Nat) (d : Digits) : Prop where
  spells : Spells quanta d
  least : ∀ e, Spells quanta e → d.count ≤ e.count
  nearest : ∀ e, Spells quanta e → e.count = d.count →
    |d.toRat - magnitude quanta| ≤ |e.toRat - magnitude quanta|

section Chosen

variable {tie : Tie} {quanta : Nat}

/-- The chosen digits are found for some length, and for no smaller one any are. -/
theorem exists_first (tie : Tie) (hq : OnGrid quanta) (h : quanta ≠ 0) : ∃ count, 0 < count ∧
    withCount? tie quanta count = some (ofQuanta tie quanta) ∧
    ∀ fewer, 0 < fewer → fewer < count → withCount? tie quanta fewer = none := by
  have hsome : ((List.range' 1 17).findSome? (withCount? tie quanta)).isSome = true :=
    List.findSome?_isSome_iff.mpr ⟨17, by decide, isSome_withCount?_seventeen tie hq h⟩
  obtain ⟨d, hd⟩ := Option.isSome_iff_exists.mp hsome
  obtain ⟨front, count, back, split, found, before⟩ := List.findSome?_eq_some_iff.mp hd
  obtain ⟨k, -, hfront, hback⟩ := List.range'_eq_append_iff.mp split
  have hcount : count = 1 + k := by
    have first := congrArg List.head? hback
    rw [List.head?_cons, List.head?_range'] at first
    split at first
    · cases first
    · simpa using Option.some.inj first
  refine ⟨count, by omega, ?_, fun fewer hpos hlt => before fewer ?_⟩
  · rw [ofQuanta, hd, Option.getD_some, found]
  · rw [hfront, List.mem_range'_1]
    omega

/-- The chosen digits are as many as they were found for. -/
theorem count_of_first {count : Nat} {d : Digits} (hq : OnGrid quanta) (h : quanta ≠ 0)
    (hcount : 0 < count) (found : withCount? tie quanta count = some d)
    (first : ∀ fewer, 0 < fewer → fewer < count → withCount? tie quanta fewer = none) :
    d.count = count := by
  have hd := spells_of_withCount? hq h hcount found
  obtain ⟨value, -, -, rfl⟩ := exists_of_withCount? found
  by_cases last : value = tenPow count
  · -- a one and zeros would have been found with a single digit
    rw [digitsOf, if_pos last] at hd ⊢
    refine Nat.le_antisymm hcount (Nat.le_of_not_lt fun hlt => ?_)
    have some := isSome_withCount?_of_spells tie hd hq h
    rw [first 1 Nat.one_pos hlt] at some
    cases some
  · rw [digitsOf, if_neg last]

/-- **The digits that are chosen are the fewest that read back, and the nearest of them.** -/
theorem fewest_ofQuanta (tie : Tie) (hq : OnGrid quanta) (h : quanta ≠ 0) :
    Fewest quanta (ofQuanta tie quanta) := by
  obtain ⟨count, hcount, found, first⟩ := exists_first tie hq h
  have chosen := count_of_first hq h hcount found first
  refine ⟨spells_of_withCount? hq h hcount found, fun e he => ?_, fun e he same => ?_⟩
  · rw [chosen]
    refine Nat.le_of_not_lt fun fewer => ?_
    have some := isSome_withCount?_of_spells tie he hq h
    rw [first _ (he.bounds h).1 fewer] at some
    cases some
  · rw [chosen] at same
    subst same
    exact nearest_of_withCount? he hq h found

end Chosen

end Shortest

end ProductSegments
