import ProductSegments.Number.Shortest
import ProductSegments.Proofs.Number.Rounding

/-!
# Shortest digits read back

The digits that are chosen for a number are as many as they claim to be, and the decimal number that
they spell rounds to the number again.  At most seventeen digits are needed for that.

## Main definitions

* `Digits.decimal` — the decimal number that digits spell.
* `Shortest.Spells` — digits that read back to a magnitude.
* `Shortest.power` — the magnitude nearest to a power of ten.

## Main results

* `Shortest.exponentOf_spec` — the decimal exponent of a magnitude.
* `Shortest.spells_of_withCount?` — digits that are found read back.
* `Shortest.isSome_withCount?_seventeen` — seventeen digits are always found.
* `Shortest.spells_ofQuanta` — so the shortest digits read back.
* `Shortest.lt_exponent_iff` — they reach a power of ten where the number reaches it.
-/

namespace ProductSegments

attribute [local irreducible] Binary64.limit Binary64.unit

/-! ### Moving powers of ten -/

section Powers

variable {a b i j i' j' : Nat}

theorem mul_tenPow_mul (h : i + j' = i' + j) : a * tenPow i * tenPow j' = a * tenPow i' * tenPow j := by
  rw [Nat.mul_assoc, ← tenPow_add, h, tenPow_add, Nat.mul_assoc]

theorem mul_tenPow_le_iff (h : i + j' = i' + j) :
    a * tenPow i ≤ b * tenPow j ↔ a * tenPow i' ≤ b * tenPow j' := by
  rw [← Nat.mul_le_mul_right_iff (tenPow_pos j'), mul_tenPow_mul h, Nat.mul_right_comm b,
    Nat.mul_le_mul_right_iff (tenPow_pos j)]

theorem mul_tenPow_lt_iff (h : i + j' = i' + j) :
    a * tenPow i < b * tenPow j ↔ a * tenPow i' < b * tenPow j' := by
  rw [← Nat.mul_lt_mul_right (tenPow_pos j'), mul_tenPow_mul h, Nat.mul_right_comm b,
    Nat.mul_lt_mul_right (tenPow_pos j)]

end Powers

theorem tenPow_le_tenPow {i j : Nat} (h : i ≤ j) : tenPow i ≤ tenPow j :=
  Nat.pow_le_pow_right (by decide) h

theorem tenPow_le_of_length_toDigits {n : Nat} (hn : n ≠ 0) :
    tenPow ((Nat.toDigits 10 n).length - 1) ≤ n := by
  apply Nat.le_of_not_lt
  intro hlt
  rcases Nat.eq_zero_or_pos ((Nat.toDigits 10 n).length - 1) with hzero | hpos
  · rw [hzero, tenPow_zero] at hlt
    omega
  · have := (Nat.length_toDigits_le_iff (by decide) hpos).mpr hlt
    omega

theorem lt_tenPow_length_toDigits (n : Nat) : n < tenPow (Nat.toDigits 10 n).length :=
  (Nat.length_toDigits_le_iff (by decide) Nat.length_toDigits_pos).mp (Nat.le_refl _)

theorem length_toDigits_eq {n count : Nat} (hcount : 0 < count) (lower : tenPow (count - 1) ≤ n)
    (upper : n < tenPow count) : (Nat.toDigits 10 n).length = count := by
  have hle := (Nat.length_toDigits_le_iff (by decide) hcount).mpr upper
  have hpos : 0 < (Nat.toDigits 10 n).length := Nat.length_toDigits_pos
  apply Nat.le_antisymm hle
  apply Nat.le_of_not_lt
  intro hlt
  have hsmall := (Nat.length_toDigits_le_iff (by decide : 1 < 10) (by omega)).mp
    (Nat.le_sub_one_of_lt hlt)
  exact absurd lower (Nat.not_le_of_lt hsmall)

/-- The decimal number that digits spell. -/
def Digits.decimal (negative : Bool) (d : Digits) : Decimal :=
  ⟨negative, d.value, d.exponent - d.count⟩

namespace Shortest

open Binary64 (unit spacing nearest OnGrid gapBelow)

/-- Digits that read back to a magnitude. -/
structure Spells (quanta : Nat) (d : Digits) : Prop where
  length : (Nat.toDigits 10 d.value).length = d.count
  nearest_eq : nearest ((d.decimal false).numerator * unit) (d.decimal false).denominator = quanta

/-! ### The exponent -/

/-- **The decimal exponent of a magnitude**: the magnitude is below that power of ten, and not below
the one before. -/
theorem exponentOf_spec {quanta : Nat} (h : quanta ≠ 0) :
    unit * tenPow (exponentOf quanta - 1).toNat ≤ quanta * tenPow (1 - exponentOf quanta).toNat ∧
      quanta * tenPow (-exponentOf quanta).toNat < unit * tenPow (exponentOf quanta).toNat := by
  unfold exponentOf
  dsimp only
  split
  · next hwhole =>
    generalize hlen : (Nat.toDigits 10 (quanta / unit)).length = count
    have hpos : 0 < count := hlen ▸ Nat.length_toDigits_pos
    have lower := tenPow_le_of_length_toDigits hwhole
    have upper := lt_tenPow_length_toDigits (quanta / unit)
    rw [hlen] at lower upper
    rw [show ((count : Int) - 1).toNat = count - 1 by omega, show (1 - (count : Int)).toNat = 0 by omega,
      show (-(count : Int)).toNat = 0 by omega, Int.toNat_natCast, tenPow_zero, Nat.mul_one]
    constructor
    · rw [Nat.mul_comm]
      exact (Nat.le_div_iff_mul_le Binary64.unit_pos).mp lower
    · rw [Nat.mul_comm]
      exact (Nat.div_lt_iff_lt_mul Binary64.unit_pos).mp upper
  · next hwhole =>
    have hsmall : quanta < unit := by
      rcases Nat.lt_or_ge quanta unit with hlt | hge
      · exact hlt
      · exact absurd (Nat.ne_of_gt (Nat.div_pos hge Binary64.unit_pos)) hwhole
    -- three hundred and ninety-nine places are more than enough
    have hfar : unit ≤ quanta * tenPow 399 :=
      calc unit = twoPow 0 * unit := (Nat.one_mul _).symm
        _ = twoPow 1074 := Binary64.twoPow_mul_unit rfl
        _ ≤ twoPow (3 * 399) := twoPow_le_twoPow (by decide)
        _ ≤ tenPow 399 := twoPow_mul_three_le_tenPow 399
        _ ≤ quanta * tenPow 399 := Nat.le_mul_of_pos_left _ (Nat.pos_of_ne_zero h)
    have hfound : ((List.range 400).find? fun j => unit ≤ quanta * tenPow j).isSome = true :=
      List.find?_isSome.mpr ⟨399, List.mem_range.mpr (by decide), decide_eq_true hfar⟩
    obtain ⟨j, hj⟩ := Option.isSome_iff_exists.mp hfound
    rw [hj, Option.getD_some]
    obtain ⟨hle, -, hbefore⟩ := List.find?_range_eq_some.mp hj
    have hle : unit ≤ quanta * tenPow j := by simpa using hle
    have hpos : 0 < j := Nat.pos_of_ne_zero fun hzero => by
      rw [hzero, tenPow_zero, Nat.mul_one] at hle
      omega
    have hlt : quanta * tenPow (j - 1) < unit := by simpa using hbefore (j - 1) (by omega)
    rw [show (1 - (j : Int) - 1).toNat = 0 by omega, show (1 - (1 - (j : Int))).toNat = j by omega,
      show (-(1 - (j : Int))).toNat = j - 1 by omega, show (1 - (j : Int)).toNat = 0 by omega,
      tenPow_zero, Nat.mul_one]
    exact ⟨hle, hlt⟩

/-! ### Digits of one length -/

/-- The power of ten by which a magnitude is multiplied to have `count` digits before the point. -/
def stretch (quanta count : Nat) : Nat := tenPow (count - exponentOf quanta).toNat

/-- The power of ten by which it is divided instead. -/
def shrink (quanta count : Nat) : Nat := tenPow (exponentOf quanta - count).toNat

/-- The whole part of the stretched magnitude. -/
def wholeDigits (quanta count : Nat) : Nat :=
  quanta * stretch quanta count / (unit * shrink quanta count)

/-- The digit string of a value that is next to the stretched magnitude. -/
def digitsOf (quanta count value : Nat) : Digits :=
  if value = tenPow count then ⟨1, 1, exponentOf quanta + 1⟩ else ⟨value, count, exponentOf quanta⟩

/-- A value next to the stretched magnitude reads back. -/
def Fits (quanta count value : Nat) : Prop :=
  readsBack quanta (value * shrink quanta count) (stretch quanta count) = true

theorem stretch_pos (quanta count : Nat) : 0 < stretch quanta count := tenPow_pos _

theorem unit_mul_shrink_pos (quanta count : Nat) : 0 < unit * shrink quanta count :=
  Nat.mul_pos Binary64.unit_pos (tenPow_pos _)

/-- The part of the stretched magnitude that is left of its whole part. -/
def excess (quanta count : Nat) : Nat :=
  quanta * stretch quanta count % (unit * shrink quanta count)

/-- The value above the whole part is taken first. -/
def roundsUp (tie : Tie) (quanta count : Nat) : Bool :=
  excess quanta count * 2 > unit * shrink quanta count ||
    (excess quanta count * 2 == unit * shrink quanta count && match tie with
      | .up => true
      | .even => wholeDigits quanta count % 2 == 1)

/-- The value that is tried first. -/
def near (tie : Tie) (quanta count : Nat) : Nat :=
  if roundsUp tie quanta count then wholeDigits quanta count + 1 else wholeDigits quanta count

/-- The value that is tried next. -/
def far (tie : Tie) (quanta count : Nat) : Nat :=
  if roundsUp tie quanta count then wholeDigits quanta count else wholeDigits quanta count + 1

theorem withCount?_eq (tie : Tie) (quanta count : Nat) : withCount? tie quanta count =
    if readsBack quanta (near tie quanta count * shrink quanta count) (stretch quanta count) then
      some (digitsOf quanta count (near tie quanta count))
    else if readsBack quanta (far tie quanta count * shrink quanta count) (stretch quanta count) &&
        far tie quanta count ≠ 0 then
      some (digitsOf quanta count (far tie quanta count))
    else none := rfl

/-- Digits are found only next to the stretched magnitude, and only if they read back. -/
theorem exists_of_withCount? {tie : Tie} {quanta count : Nat} {d : Digits}
    (h : withCount? tie quanta count = some d) : ∃ value,
      (value = wholeDigits quanta count ∨ value = wholeDigits quanta count + 1) ∧
        Fits quanta count value ∧ digitsOf quanta count value = d := by
  have hnear : near tie quanta count = wholeDigits quanta count ∨
      near tie quanta count = wholeDigits quanta count + 1 := by
    unfold near
    split
    · exact .inr rfl
    · exact .inl rfl
  have hfar : far tie quanta count = wholeDigits quanta count ∨
      far tie quanta count = wholeDigits quanta count + 1 := by
    unfold far
    split
    · exact .inl rfl
    · exact .inr rfl
  rw [withCount?_eq] at h
  split at h
  · next hfits => exact ⟨_, hnear, hfits, Option.some.inj h⟩
  · split at h
    · next hfits =>
      rw [Bool.and_eq_true] at hfits
      exact ⟨_, hfar, hfits.1, Option.some.inj h⟩
    · cases h

/-- The value that is tried first is at most half a unit away from the stretched magnitude. -/
theorem near_spec (tie : Tie) (quanta count : Nat) :
    2 * (near tie quanta count * (unit * shrink quanta count))
        ≤ 2 * (quanta * stretch quanta count) + unit * shrink quanta count ∧
      2 * (quanta * stretch quanta count)
        ≤ 2 * (near tie quanta count * (unit * shrink quanta count)) + unit * shrink quanta count := by
  have hsplit : unit * shrink quanta count * wholeDigits quanta count + excess quanta count
      = quanta * stretch quanta count := Nat.div_add_mod ..
  have hexcess : excess quanta count < unit * shrink quanta count :=
    Nat.mod_lt _ (unit_mul_shrink_pos quanta count)
  rw [Nat.mul_comm (unit * _)] at hsplit
  unfold near
  split
  · next hup =>
    have hup : unit * shrink quanta count ≤ excess quanta count * 2 := by
      unfold roundsUp at hup
      rw [Bool.or_eq_true, Bool.and_eq_true] at hup
      rcases hup with h | ⟨h, -⟩
      · exact Nat.le_of_lt (of_decide_eq_true h)
      · exact Nat.le_of_eq (beq_iff_eq.mp h).symm
    rw [Nat.add_mul, Nat.one_mul]
    omega
  · next hdown =>
    have hdown : excess quanta count * 2 ≤ unit * shrink quanta count := by
      unfold roundsUp at hdown
      rw [Bool.or_eq_true, not_or] at hdown
      simpa using hdown.1
    omega

/-! ### Reading back -/

theorem readsBack_eq (quanta num den : Nat) : readsBack quanta num den =
    if quanta / spacing quanta % 2 = 0 then
      (2 * quanta - gapBelow quanta) * den ≤ 2 * num * unit &&
        2 * num * unit ≤ (2 * quanta + spacing quanta) * den
    else (2 * quanta - gapBelow quanta) * den < 2 * num * unit &&
      2 * num * unit < (2 * quanta + spacing quanta) * den := rfl

/-- **What reads back rounds to the magnitude.** -/
theorem nearest_of_readsBack {quanta num den : Nat} (hq : OnGrid quanta) (hden : 0 < den)
    (h : readsBack quanta num den = true) : nearest (num * unit) den = quanta := by
  have hplace : 2 * num * unit = 2 * (num * unit) := Nat.mul_assoc ..
  rw [readsBack_eq, hplace] at h
  split at h
  · next heven =>
    rw [Bool.and_eq_true, decide_eq_true_eq, decide_eq_true_eq] at h
    exact Binary64.nearest_eq_of_between hden hq h.1 h.2 fun _ => heven
  · rw [Bool.and_eq_true, decide_eq_true_eq, decide_eq_true_eq] at h
    exact Binary64.nearest_eq_of_between hden hq (Nat.le_of_lt h.1) (Nat.le_of_lt h.2) fun hmiddle => by
      omega

/-- What is strictly between the middles to both neighbours reads back. -/
theorem readsBack_of_between {quanta num den : Nat}
    (lower : (2 * quanta - gapBelow quanta) * den < 2 * num * unit)
    (upper : 2 * num * unit < (2 * quanta + spacing quanta) * den) :
    readsBack quanta num den = true := by
  rw [readsBack_eq]
  split
  · simp [Nat.le_of_lt lower, Nat.le_of_lt upper]
  · simp [lower, upper]

/-- The stretched magnitude has `count` digits before the point. -/
theorem wholeDigits_bounds {quanta count : Nat} (h : quanta ≠ 0) (hcount : 0 < count) :
    tenPow (count - 1) ≤ wholeDigits quanta count ∧ wholeDigits quanta count < tenPow count := by
  obtain ⟨lower, upper⟩ := exponentOf_spec h
  have hpos := unit_mul_shrink_pos quanta count
  unfold wholeDigits stretch shrink at *
  generalize exponentOf quanta = e at *
  constructor
  · rw [Nat.le_div_iff_mul_le hpos, Nat.mul_left_comm, ← tenPow_add]
    refine (mul_tenPow_le_iff ?_).mpr lower
    omega
  · rw [Nat.div_lt_iff_lt_mul hpos, Nat.mul_left_comm, ← tenPow_add]
    refine (mul_tenPow_lt_iff ?_).mpr upper
    omega

/-- The digit string of a value that reads back does so itself. -/
theorem spells_digitsOf {quanta count value : Nat} (hq : OnGrid quanta) (hcount : 0 < count)
    (lower : tenPow (count - 1) ≤ value) (upper : value ≤ tenPow count)
    (hfits : Fits quanta count value) : Spells quanta (digitsOf quanta count value) := by
  have hnearest := nearest_of_readsBack hq (stretch_pos quanta count) hfits
  unfold digitsOf
  split
  · next hlast =>
    -- a one and zeros: the same number with a single digit
    have hexponent : (exponentOf quanta + 1 - (1 : Nat) : Int) = exponentOf quanta := by omega
    refine ⟨(by decide : (Nat.toDigits 10 1).length = 1), Eq.trans ?_ hnearest⟩
    refine Binary64.nearest_congr (Decimal.denominator_pos _) (stretch_pos _ _) ?_
    simp only [Digits.decimal, Decimal.numerator, Decimal.denominator, hexponent, hlast, stretch,
      shrink, Nat.one_mul]
    rw [Nat.mul_right_comm, ← tenPow_add, Nat.mul_right_comm _ unit, ← tenPow_add, ← tenPow_add]
    congr 2
    omega
  · next hlast =>
    have hneg : -(exponentOf quanta - (count : Int)) = count - exponentOf quanta := by omega
    refine ⟨length_toDigits_eq hcount lower (Nat.lt_of_le_of_ne upper hlast), Eq.trans ?_ hnearest⟩
    simp only [Digits.decimal, Decimal.numerator, Decimal.denominator, hneg]
    rfl

/-- **Digits that are found read back.** -/
theorem spells_of_withCount? {tie : Tie} {quanta count : Nat} {d : Digits} (hq : OnGrid quanta)
    (h : quanta ≠ 0) (hcount : 0 < count) (hd : withCount? tie quanta count = some d) :
    Spells quanta d := by
  obtain ⟨value, hvalue, hfits, rfl⟩ := exists_of_withCount? hd
  obtain ⟨lower, upper⟩ := wholeDigits_bounds h hcount
  refine spells_digitsOf hq hcount ?_ ?_ hfits
  · omega
  · omega

/-- A unit in the seventeenth digit is less than the gap between two values. -/
theorem unit_mul_shrink_lt {quanta : Nat} (hq : OnGrid quanta) (h : quanta ≠ 0) :
    unit * shrink quanta 17 < gapBelow quanta * stretch quanta 17 := by
  obtain ⟨lower, -⟩ := exponentOf_spec h
  unfold shrink stretch
  generalize exponentOf quanta = e at *
  have hgap : 0 < gapBelow quanta := hq.gapBelow_pos h
  have hwide : unit * tenPow (e - 1).toNat < gapBelow quanta * tenPow (16 + (1 - e).toNat) :=
    calc unit * tenPow (e - 1).toNat ≤ quanta * tenPow (1 - e).toNat := lower
      _ ≤ twoPow 53 * gapBelow quanta * tenPow (1 - e).toNat :=
        Nat.mul_le_mul_right _ hq.le_mul_gapBelow
      _ < tenPow 16 * gapBelow quanta * tenPow (1 - e).toNat :=
        (Nat.mul_lt_mul_right (tenPow_pos _)).mpr ((Nat.mul_lt_mul_right hgap).mpr (by decide))
      _ = gapBelow quanta * tenPow (16 + (1 - e).toNat) := by
        rw [tenPow_add, Nat.mul_comm (tenPow 16), Nat.mul_assoc]
  refine (mul_tenPow_lt_iff ?_).mpr hwide
  omega

/-- **Seventeen digits are always found.** -/
theorem isSome_withCount?_seventeen (tie : Tie) {quanta : Nat} (hq : OnGrid quanta) (h : quanta ≠ 0) :
    (withCount? tie quanta 17).isSome = true := by
  obtain ⟨hnearLe, hleNear⟩ := near_spec tie quanta 17
  have hgap := unit_mul_shrink_lt hq h
  have hspacing : gapBelow quanta * stretch quanta 17 ≤ spacing quanta * stretch quanta 17 :=
    Nat.mul_le_mul_right _ (Binary64.gapBelow_le_spacing quanta)
  have hsmall : gapBelow quanta * stretch quanta 17 ≤ quanta * stretch quanta 17 :=
    Nat.mul_le_mul_right _ (hq.gapBelow_le h)
  have hplace : 2 * (near tie quanta 17 * shrink quanta 17) * unit
      = 2 * (near tie quanta 17 * (unit * shrink quanta 17)) := by
    rw [Nat.mul_assoc, Nat.mul_assoc, Nat.mul_comm unit]
  have hfits : readsBack quanta (near tie quanta 17 * shrink quanta 17) (stretch quanta 17) = true := by
    apply readsBack_of_between
    · rw [hplace, Nat.sub_mul, Nat.mul_assoc 2]
      omega
    · rw [hplace, Nat.add_mul, Nat.mul_assoc 2 quanta]
      omega
  rw [withCount?_eq, if_pos hfits]
  rfl

/-- **The shortest digits read back.** -/
theorem spells_ofQuanta (tie : Tie) {quanta : Nat} (hq : OnGrid quanta) (h : quanta ≠ 0) :
    Spells quanta (ofQuanta tie quanta) := by
  have hsome : ((List.range' 1 17).findSome? (withCount? tie quanta)).isSome = true :=
    List.findSome?_isSome_iff.mpr ⟨17, by decide, isSome_withCount?_seventeen tie hq h⟩
  obtain ⟨d, hd⟩ := Option.isSome_iff_exists.mp hsome
  obtain ⟨count, hmem, hcount⟩ := List.exists_of_findSome?_eq_some hd
  have hpos : 0 < count := (List.mem_range'_1.mp hmem).1
  rw [ofQuanta, hd, Option.getD_some]
  exact spells_of_withCount? hq h hpos hcount

/-! ### Where the digits reach a power of ten -/

/-- The magnitude of the value nearest to a power of ten. -/
def power (k : Int) : Nat := nearest (tenPow k.toNat * unit) (tenPow (-k).toNat)

/-- The digits have no zero in front. -/
theorem Spells.bounds {quanta : Nat} {d : Digits} (h : Spells quanta d) (hne : quanta ≠ 0) :
    0 < d.count ∧ tenPow (d.count - 1) ≤ d.value ∧ d.value < tenPow d.count := by
  have hvalue : d.value ≠ 0 := by
    intro hzero
    have hnearest := h.nearest_eq
    rw [Decimal.numerator, Digits.decimal, hzero, Nat.zero_mul, Nat.zero_mul,
      Binary64.nearest_zero] at hnearest
    exact hne hnearest.symm
  rw [← h.length]
  exact ⟨Nat.length_toDigits_pos, tenPow_le_of_length_toDigits hvalue, lt_tenPow_length_toDigits _⟩

/-- **The digits reach a power of ten where the number reaches the value nearest to it.** -/
theorem lt_exponent_iff {tie : Tie} {quanta : Nat} {k : Int} (hq : OnGrid quanta) (h : quanta ≠ 0)
    (hpower : k < (ofQuanta tie (power k)).exponent) :
    k < (ofQuanta tie quanta).exponent ↔ power k ≤ quanta := by
  have hspells := spells_ofQuanta tie hq h
  obtain ⟨hcount, lower, upper⟩ := hspells.bounds h
  constructor
  · intro hlt
    rw [← hspells.nearest_eq]
    refine Binary64.nearest_mono (tenPow_pos _) (Decimal.denominator_pos _) ?_
    simp only [Decimal.numerator, Decimal.denominator, Digits.decimal]
    generalize ofQuanta tie quanta = d at *
    calc tenPow k.toNat * unit * tenPow (-(d.exponent - d.count)).toNat
        = tenPow (k.toNat + (-(d.exponent - d.count)).toNat) * unit := by
          rw [Nat.mul_right_comm, tenPow_add]
      _ ≤ tenPow (d.count - 1 + ((d.exponent - d.count).toNat + (-k).toNat)) * unit :=
          Nat.mul_le_mul_right _ (tenPow_le_tenPow (by omega))
      _ = tenPow (d.count - 1) * (tenPow (d.exponent - d.count).toNat * tenPow (-k).toNat) * unit := by
          rw [tenPow_add, tenPow_add]
      _ ≤ d.value * (tenPow (d.exponent - d.count).toNat * tenPow (-k).toNat) * unit :=
          Nat.mul_le_mul_right _ (Nat.mul_le_mul_right _ lower)
      _ = d.value * tenPow (d.exponent - d.count).toNat * unit * tenPow (-k).toNat := by
          rw [← Nat.mul_assoc, Nat.mul_right_comm]
  · intro hle
    apply Int.lt_of_not_ge
    intro hge
    have hreach : quanta ≤ power k := by
      rw [← hspells.nearest_eq]
      refine Binary64.nearest_mono (Decimal.denominator_pos _) (tenPow_pos _) ?_
      simp only [Decimal.numerator, Decimal.denominator, Digits.decimal]
      generalize ofQuanta tie quanta = d at *
      calc d.value * tenPow (d.exponent - d.count).toNat * unit * tenPow (-k).toNat
          = d.value * (tenPow (d.exponent - d.count).toNat * tenPow (-k).toNat) * unit := by
            rw [← Nat.mul_assoc, Nat.mul_right_comm]
        _ ≤ tenPow d.count * (tenPow (d.exponent - d.count).toNat * tenPow (-k).toNat) * unit :=
            Nat.mul_le_mul_right _ (Nat.mul_le_mul_right _ (Nat.le_of_lt upper))
        _ = tenPow (d.count + ((d.exponent - d.count).toNat + (-k).toNat)) * unit := by
            rw [tenPow_add, tenPow_add]
        _ ≤ tenPow (k.toNat + (-(d.exponent - d.count)).toNat) * unit :=
            Nat.mul_le_mul_right _ (tenPow_le_tenPow (by omega))
        _ = tenPow k.toNat * unit * tenPow (-(d.exponent - d.count)).toNat := by
            rw [Nat.mul_right_comm, tenPow_add]
    -- the digits of the power itself do not fall short of it
    rw [Nat.le_antisymm hreach hle] at hge
    omega

end Shortest

end ProductSegments
