import ProductSegments.Catalog.Backoff
import ProductSegments.Proofs.Number.Integer

/-!
# Powers of two

The powers of the number two are computed exactly, up to the first that overflows.  A whole number
times such a power is rounded no more than the whole number itself, and the whole part of one
divided by such a power is that of the exact quotient.

How the smaller of two numbers and the whole part of a number come out is read off their places on
the number line.

## Main results

* `Binary64.place?_ofNat` — where a rounded whole number stands.
* `Binary64.place?_min` — where the smaller of two numbers stands.
* `Binary64.truncate_eq` — the whole part of a number.
* `Binary64.power_two`, `Binary64.power_two_neg` — the powers of two.
* `Binary64.exists_place?_mul_reciprocal` — a whole number divided by a power of two.
-/

namespace ProductSegments.Binary64

attribute [local irreducible] limit unit

/-! ### Whole numbers on the number line -/

/-- Whole numbers are rounded to whole numbers. -/
theorem nearest_mul_unit_eq (n : Nat) : nearest (n * unit) 1 = nearest n 1 * unit := by
  rcases Nat.lt_or_ge n (twoPow 53) with small | large
  · have grid := onGrid_of_le (Nat.le_of_lt small)
    rw [nearest_self grid.mul_unit, nearest_self grid]
  · have wide : twoPow 52 * 1 ≤ n := Nat.le_trans (by decide) large
    have := nearest_mul_twoPow Nat.one_pos wide 1074
    unfold unit
    exact this

/-- **Where a rounded whole number stands**, an overflow at the end of the finite values. -/
theorem place?_ofNat (n : Nat) :
    (ofNat n).place? = some ((Nat.min (nearest n 1) (twoPow 1024) * unit : Nat) : Int) := by
  have cut : Nat.min (nearest n 1) (twoPow 1024) * unit = Nat.min (nearest (n * unit) 1) limit := by
    rw [nearest_mul_unit_eq, limit_eq]
    exact (Nat.mul_min_mul_right ..).symm
  rw [cut]
  rcases ofNat_cases n with ⟨exact, hn⟩ | ⟨hn, overflow⟩
  · have below : Nat.min (nearest (n * unit) 1) limit = nearest (n * unit) 1 :=
      Nat.min_eq_left (Nat.le_of_lt exact.2)
    rw [hn, below]
    rfl
  · have above : Nat.min (nearest (n * unit) 1) limit = limit := Nat.min_eq_right overflow
    rw [hn, above]
    rfl

/-- A whole number that is on the grid stands at its own place, if it does not overflow. -/
theorem place?_ofNat_of_onGrid {n : Nat} (h : OnGrid n) :
    (ofNat n).place? = some ((Nat.min n (twoPow 1024) * unit : Nat) : Int) := by
  rw [place?_ofNat, nearest_self h]

/-! ### The smaller of two numbers -/

variable {x y : Binary64}

/-- Only not-a-number has no place. -/
theorem eq_nan_of_place? (h : x.place? = none) : x = nan := by
  cases x with
  | nan => rfl
  | infinity negative => cases h
  | finite negative quanta exact => cases h

/-- **The smaller of two numbers stands at the smaller of their places.** -/
theorem place?_min {p q : Int} (hx : x.place? = some p) (hy : y.place? = some q) :
    (x.min y).place? = some (Min.min p q) := by
  have order : x.compare? y = some (compare p q) := by
    unfold compare?
    rw [hx, hy]
  unfold min
  rw [order]
  cases h : compare p q with
  | lt =>
    have le : p ≤ q := Int.le_of_lt (Int.compare_eq_lt.mp h)
    rw [Int.min_eq_left le]
    exact hx
  | eq =>
    have le : p ≤ q := Int.le_of_eq (Int.compare_eq_eq.mp h)
    rw [Int.min_eq_left le]
    exact hx
  | gt =>
    have le : q ≤ p := Int.le_of_lt (Int.compare_eq_gt.mp h)
    rw [Int.min_eq_right le]
    exact hy

@[simp] theorem min_nan_left (y : Binary64) : nan.min y = y := rfl

/-! ### Whole parts -/

/-- **The whole part of a number**, up to a bound that is itself among the finite values. -/
theorem truncate_eq {p : Int} {cap : Nat} (h : x.place? = some p) (hcap : cap ≤ twoPow 1024) :
    x.truncate cap = Nat.min (p.toNat / unit) cap := by
  have zero : Nat.min (0 / unit) cap = 0 := by
    rw [Nat.zero_div]
    exact Nat.zero_min cap
  cases x with
  | nan => cases h
  | infinity negative =>
    obtain rfl := Option.some.inj h
    cases negative with
    | true =>
      have below : (-(limit : Int)).toNat = 0 := by omega
      simp only [truncate, if_true, below, zero]
    | false =>
      have past : cap ≤ limit / unit := by
        rw [limit_eq, Nat.mul_div_cancel _ unit_pos]
        exact hcap
      exact (Nat.min_eq_right past).symm
  | finite negative quanta exact =>
    obtain rfl := Option.some.inj h
    cases negative with
    | true =>
      have below : (-(quanta : Int)).toNat = 0 := by omega
      simp only [truncate, if_true, below, zero]
    | false => rfl

/-! ### Powers of two -/

/-- By squaring, a power of two is multiplied into a power of two. -/
theorem powerFrom_twoPow (i j n : Nat) :
    powerFrom (ofNat (twoPow i)) (ofNat (twoPow j)) n = ofNat (twoPow (i + j * n)) := by
  induction n using Nat.strongRecOn generalizing i j with
  | ind n ih =>
    have times : ∀ i j, ofNat (twoPow i) * ofNat (twoPow j) = ofNat (twoPow (i + j)) := by
      intro i j
      rw [ofNat_mul_twoPow _ (.inl (Nat.ne_of_gt (twoPow_pos i))), twoPow_add]
    -- the lowest bit of the exponent is multiplied into the result
    have bit : (if n % 2 = 1 then ofNat (twoPow i) * ofNat (twoPow j) else ofNat (twoPow i)) =
        ofNat (twoPow (i + j * (n % 2))) := by
      rcases Nat.mod_two_eq_zero_or_one n with even | odd
      · rw [even, if_neg (by decide), Nat.mul_zero, Nat.add_zero]
      · rw [odd, if_pos rfl, Nat.mul_one, times]
    have halves : j * n = j * (n % 2) + (j + j) * (n / 2) :=
      calc j * n = j * (n % 2 + 2 * (n / 2)) := by rw [Nat.mod_add_div]
        _ = j * (n % 2) + (j + j) * (n / 2) := by rw [Nat.mul_add, ← Nat.mul_assoc, Nat.mul_two]
    rw [powerFrom]
    simp only [bit]
    split
    · next last => rw [halves, last, Nat.mul_zero, Nat.add_zero]
    · next more =>
      rw [times, ih (n / 2) (by omega), halves, Nat.add_assoc]

theorem power_two (n : Nat) : (ofNat 2).power n = ofNat (twoPow n) := by
  have run := powerFrom_twoPow 0 1 n
  rw [Nat.zero_add, Nat.one_mul] at run
  have positive : ¬(n : Int) < 0 := by omega
  unfold power
  rw [if_neg positive, Int.natAbs_natCast]
  exact run

theorem power_two_neg {n : Nat} (h : 0 < n) :
    (ofNat 2).power (-(n : Int)) = (ofNat (twoPow n)).reciprocal := by
  have run := powerFrom_twoPow 0 1 n
  rw [Nat.zero_add, Nat.one_mul] at run
  have negative : -(n : Int) < 0 := by omega
  unfold power
  rw [if_pos negative, Int.natAbs_neg, Int.natAbs_natCast]
  exact congrArg reciprocal run

/-- The reciprocal of a power of two is exact, as long as the power does not overflow. -/
theorem reciprocal_twoPow {n : Nat} (h : n < 1024) : ∃ exact,
    (ofNat (twoPow n)).reciprocal = .finite false (twoPow (1074 - n)) exact := by
  have pos : 0 < twoPow n * unit := Nat.mul_pos (twoPow_pos n) unit_pos
  have whole : unit * unit = twoPow (1074 - n) * (twoPow n * unit) := by
    rw [← Nat.mul_assoc, ← twoPow_add, Nat.sub_add_cancel (by omega)]
    unfold unit
    rfl
  have grid := onGrid_twoPow (1074 - n)
  have hnearest : nearest (unit * unit) (twoPow n * unit) = twoPow (1074 - n) := by
    rw [whole]
    exact nearest_of_onGrid pos grid
  have fits : twoPow (1074 - n) < limit := by
    unfold limit
    exact twoPow_lt_twoPow (by omega)
  rw [ofNat_of_onGrid (onGrid_twoPow n) (twoPow_lt_twoPow h), reciprocal,
    if_neg (Nat.ne_of_gt pos)]
  exact ⟨_, round_of_nearest_eq hnearest (grid.representable fits)⟩

/-- **The whole part of a whole number divided by a power of two** is that of the exact quotient,
even where the power overflows. -/
theorem exists_place?_mul_reciprocal {m : Nat} (hm : m ≤ twoPow 53) (n : Nat) :
    ∃ p : Nat, (ofNat m * (ofNat (twoPow n)).reciprocal).place? = some (p : Int) ∧
      p / unit = m / twoPow n := by
  rw [ofNat_of_le hm]
  rcases Nat.lt_or_ge n 1024 with small | large
  · obtain ⟨_, hpower⟩ := reciprocal_twoPow small
    have grid : OnGrid (m * twoPow (1074 - n)) := (onGrid_of_le hm).mul_twoPow _
    have product : nearest (m * unit * twoPow (1074 - n)) unit = m * twoPow (1074 - n) := by
      rw [Nat.mul_right_comm]
      exact nearest_of_onGrid unit_pos grid
    have fits : m * twoPow (1074 - n) < limit :=
      calc m * twoPow (1074 - n) ≤ twoPow 53 * twoPow (1074 - n) := Nat.mul_le_mul_right _ hm
        _ = twoPow (53 + (1074 - n)) := (twoPow_add ..).symm
        _ < limit := by
          unfold limit
          exact twoPow_lt_twoPow (by omega)
    have split : unit = twoPow n * twoPow (1074 - n) := by
      rw [← twoPow_add, Nat.add_sub_cancel' (by omega)]
      unfold unit
      rfl
    refine ⟨m * twoPow (1074 - n), ?_, ?_⟩
    · rw [hpower]
      change (round false (m * unit * twoPow (1074 - n)) unit).place? = _
      rw [round_of_nearest_eq product (grid.representable fits)]
      rfl
    · rw [split, Nat.mul_div_mul_right _ _ (twoPow_pos _)]
  · have vanishes : m / twoPow n = 0 := by
      apply Nat.div_eq_of_lt
      exact Nat.lt_of_le_of_lt hm (twoPow_lt_twoPow (by omega))
    have product : nearest (m * unit * 0) unit = 0 := by rw [Nat.mul_zero, nearest_zero]
    refine ⟨0, ?_, ?_⟩
    · rw [ofNat_of_ge (twoPow_le_twoPow large)]
      change (round false (m * unit * 0) unit).place? = _
      rw [round_of_nearest_eq product (representable_of_lt (by decide))]
      rfl
    · rw [vanishes, Nat.zero_div]

end ProductSegments.Binary64
