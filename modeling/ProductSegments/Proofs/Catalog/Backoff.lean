import Mathlib.Algebra.GroupWithZero.Nat
import Mathlib.Algebra.Order.BigOperators.Group.List
import Mathlib.Algebra.Order.Group.Nat
import ProductSegments.Proofs.Catalog.Attempts
import ProductSegments.Proofs.Number.Power

/-!
# Waits between attempts

The wait before a repetition is computed with binary64 numbers: a power of the multiplier, times the
first wait, but not more than the longest one, in whole milliseconds.  Whatever the power comes to,
an infinity, not-a-number or a negative number, the wait is within the longest one.

If the multiplier is two, all of that is exact, so that the waits double until they reach the
longest one.  That ends at attempt 2³¹, where the exponent, which has a sign, wraps around: the waits
begin again at nothing, and double up to half the first wait.  A first wait of nothing does not stay
nothing either: times a power that overflows it is not-a-number, and the longest wait is taken.

## Main definitions

* `Catalog.Retried.asleep`, `Catalog.Retried.asking` — the time between the calls, and in them.
* `Catalog.Backoff.uncapped` — the wait before it is capped, which may be any number.
* `Catalog.Backoff.Capped` — waits that are bounded, one by one and all together.
* `Catalog.Backoff.doubled` — the wait that doubles with every attempt.
* `Catalog.Backoff.Doubles` — a policy whose multiplier is two and whose durations are exact.
* `Catalog.Backoff.Doubling` — what its waits are.

## Main results

* `Catalog.Backoff.capped` — the waits of every policy are bounded.
* `Catalog.Backoff.doubling` — the waits of a policy that doubles them.
* `Catalog.Backoff.not_doubled` — they are not always the doubled ones.
-/

namespace ProductSegments.Catalog

open Binary64 (ofNat unit)

attribute [local irreducible] Binary64.limit Binary64.unit

/-! ### The time between calls -/

/-- The times from the answers to calls until the calls that come next, if the first of the calls has
the given number. -/
def waitsFrom (supplier : Supplier) (first : Nat) : List Nat → List Nat
  | begun :: next :: calls =>
    (next - later begun (supplier first).delay) :: waitsFrom supplier (first + 1) (next :: calls)
  | _ => []

namespace Retried

/-- The time between the calls, all in all. -/
def asleep (supplier : Supplier) (r : Retried) : Nat := (waitsFrom supplier 0 r.calls).sum

/-- The time that the calls take, all in all. -/
def asking (supplier : Supplier) (r : Retried) : Nat :=
  ((List.range r.calls.length).map fun i => later 0 (supplier i).delay).sum

end Retried

section Waits

variable {policy : Backoff} {supplier : Supplier}

theorem later_eq (now wait : Nat) : later now wait = now + later 0 wait := by
  unfold later
  rw [Nat.zero_add]

theorem later_zero_le (wait : Nat) : later 0 wait ≤ wait := by
  unfold later
  rw [Nat.zero_add]
  exact Nat.min_le_left ..

/-- Between calls that come one after the other there is nothing but the waits of the policy. -/
theorem waitsFrom_begun (first count : Nat) :
    waitsFrom supplier first ((List.range' first (count + 1)).map (policy.begun supplier)) =
      (List.range' first count).map fun i => later 0 (policy.delay (.ofNat i)) := by
  induction count generalizing first with
  | zero => rfl
  | succ count ih =>
    have wait : policy.begun supplier (first + 1) -
        later (policy.begun supplier first) (supplier first).delay =
          later 0 (policy.delay (.ofNat first)) := by
      rw [Backoff.begun, later_eq, Nat.add_sub_cancel_left]
    have rest := ih (first + 1)
    rw [List.range'_succ, List.map_cons] at rest
    rw [List.range'_succ, List.range'_succ, List.map_cons, List.map_cons, waitsFrom, wait, rest,
      List.range'_succ, List.map_cons]

theorem asleep_begun (finished : Nat) (outcome : Outcome) (n : Nat) :
    Retried.asleep supplier ⟨(List.range (n + 1)).map (policy.begun supplier), finished, outcome⟩ =
      ((List.range n).map fun i => later 0 (policy.delay (.ofNat i))).sum := by
  unfold Retried.asleep
  rw [List.range_eq_range', List.range_eq_range', waitsFrom_begun]

/-- A call begins when all calls before it, and all waits between them, are over. -/
theorem begun_eq_sum (n : Nat) : policy.begun supplier n =
    ((List.range n).map fun i => later 0 (supplier i).delay).sum +
      ((List.range n).map fun i => later 0 (policy.delay (.ofNat i))).sum := by
  induction n with
  | zero => rfl
  | succ n ih =>
    rw [Backoff.begun, later_eq, later_eq (policy.begun supplier n), ih, List.sum_range_succ,
      List.sum_range_succ, Nat.add_assoc, Nat.add_add_add_comm]

end Waits

namespace Backoff

variable {policy : Backoff} {attempt : UInt32}

/-! ### The cap -/

/-- The wait in milliseconds before it is capped: the first wait times a power of the multiplier. -/
def uncapped (policy : Backoff) (attempt : UInt32) : Binary64 :=
  ofNat (policy.initialDelay / millisecond) * policy.multiplier.power (exponent attempt)

/-- Waits that are bounded, by a number of milliseconds. -/
structure Capped (policy : Backoff) (bound : Nat) : Prop where
  /-- The bound is the longest wait in whole milliseconds, rounded to the nearest binary64 number; an
  overflow counts as 2¹⁰²⁴. -/
  rounded : (ofNat (policy.maxDelay / millisecond)).place? = some ((bound * unit : Nat) : Int)
  /-- Up to 2⁵³ it is not changed by that. -/
  unchanged : policy.maxDelay / millisecond ≤ twoPow 53 → bound = policy.maxDelay / millisecond
  /-- A wait is the whole part of the number that is capped, nothing if that is negative; it has at
  most 64 bits. -/
  delay_eq : ∀ attempt p, (policy.uncapped attempt).place? = some p →
    policy.delay attempt = min (min (p.toNat / unit) bound) (UInt64.size - 1)
  /-- Next to not-a-number the bound is the smaller. -/
  delay_of_nan : ∀ attempt, policy.uncapped attempt = .nan →
    policy.delay attempt = min bound (UInt64.size - 1)
  /-- So no wait is longer than the bound. -/
  delay_le : ∀ attempt, policy.delay attempt ≤ bound
  /-- If the longest wait is at most 2⁵³ milliseconds, no wait is longer than that. -/
  delay_le_maxDelay : policy.maxDelay ≤ twoPow 53 * millisecond →
    ∀ attempt, policy.delay attempt * millisecond ≤ policy.maxDelay
  /-- Whatever the answers are, the time between the calls is not longer in all than that bound for
  each of the repetitions that are allowed. -/
  asleep_le : ∀ retryable supplier, (retry policy retryable supplier).asleep supplier ≤
    policy.maxRetries.toNat * bound
  /-- Nothing else takes time but the calls. -/
  finished : ∀ retryable supplier, (retry policy retryable supplier).finished =
    (retry policy retryable supplier).asking supplier +
      (retry policy retryable supplier).asleep supplier

/-- **The wait is read off the place** of the smaller of the two numbers. -/
theorem delay_of_place? {p : Int} (place : ((policy.uncapped attempt).min
    (ofNat (policy.maxDelay / millisecond))).place? = some p) :
    policy.delay attempt = min (p.toNat / unit) (UInt64.size - 1) := by
  have bits : UInt64.size - 1 ≤ twoPow 1024 := by
    have : UInt64.size ≤ twoPow 64 := by decide
    have := twoPow_le_twoPow (show 64 ≤ 1024 by decide)
    omega
  exact Binary64.truncate_eq place bits

section Delay

variable {bound : Nat}
  (longest : (ofNat (policy.maxDelay / millisecond)).place? = some ((bound * unit : Nat) : Int))
include longest

theorem delay_eq {p : Int} (place : (policy.uncapped attempt).place? = some p) :
    policy.delay attempt = min (min (p.toNat / unit) bound) (UInt64.size - 1) := by
  have whole : (min p ((bound * unit : Nat) : Int)).toNat / unit = min (p.toNat / unit) bound := by
    rcases Int.le_total p ((bound * unit : Nat) : Int) with below | past
    · have le : p.toNat / unit ≤ bound := by
        apply Nat.div_le_of_le_mul
        rw [Nat.mul_comm]
        omega
      rw [Int.min_eq_left below, Nat.min_eq_left le]
    · have le : bound ≤ p.toNat / unit := by
        apply (Nat.le_div_iff_mul_le Binary64.unit_pos).mpr
        omega
      rw [Int.min_eq_right past, Nat.min_eq_right le, Int.toNat_natCast,
        Nat.mul_div_cancel _ Binary64.unit_pos]
  rw [delay_of_place? (Binary64.place?_min place longest), whole]

theorem delay_of_nan (nan : policy.uncapped attempt = .nan) :
    policy.delay attempt = min bound (UInt64.size - 1) := by
  have place : ((policy.uncapped attempt).min (ofNat (policy.maxDelay / millisecond))).place? =
      some ((bound * unit : Nat) : Int) := by
    rw [nan, Binary64.min_nan_left, longest]
  rw [delay_of_place? place, Int.toNat_natCast, Nat.mul_div_cancel _ Binary64.unit_pos]

theorem delay_le (attempt : UInt32) : policy.delay attempt ≤ bound := by
  cases place : (policy.uncapped attempt).place? with
  | none =>
    rw [delay_of_nan longest (Binary64.eq_nan_of_place? place)]
    exact Nat.min_le_left ..
  | some p =>
    rw [delay_eq longest place]
    omega

end Delay

/-- The waits between the calls that are made are those of the first attempts. -/
theorem exists_asleep_eq (policy : Backoff) (retryable : Failure → Bool) (supplier : Supplier) :
    ∃ n ≤ policy.maxRetries.toNat, (retry policy retryable supplier).asleep supplier =
      ((List.range n).map fun i => later 0 (policy.delay (.ofNat i))).sum := by
  obtain ⟨n, le, -, -, calls⟩ := retry_eq policy retryable supplier
  refine ⟨n, le, ?_⟩
  rw [calls, asleep_begun]

theorem asleep_le {bound : Nat} (le : ∀ attempt, policy.delay attempt ≤ bound)
    (retryable : Failure → Bool) (supplier : Supplier) :
    (retry policy retryable supplier).asleep supplier ≤ policy.maxRetries.toNat * bound := by
  obtain ⟨n, few, asleep⟩ := policy.exists_asleep_eq retryable supplier
  have each : ∀ wait ∈ (List.range n).map fun i => later 0 (policy.delay (.ofNat i)),
      wait ≤ bound := by
    intro wait mem
    obtain ⟨i, -, rfl⟩ := List.mem_map.mp mem
    exact Nat.le_trans (later_zero_le _) (le _)
  have total := List.sum_le_card_nsmul _ bound each
  rw [List.length_map, List.length_range, Nat.nsmul_eq_mul] at total
  rw [asleep]
  exact Nat.le_trans total (Nat.mul_le_mul_right bound few)

/-- Nothing takes time but the calls and the waits between them. -/
theorem finished_eq (policy : Backoff) (retryable : Failure → Bool) (supplier : Supplier) :
    (retry policy retryable supplier).finished =
      (retry policy retryable supplier).asking supplier +
        (retry policy retryable supplier).asleep supplier := by
  obtain ⟨n, -, -, -, calls⟩ := retry_eq policy retryable supplier
  rw [calls, asleep_begun]
  unfold Retried.asking
  rw [List.length_map, List.length_range, answered, later_eq, begun_eq_sum, List.sum_range_succ]
  exact Nat.add_right_comm ..

/-- **The waits of every policy are bounded**, whatever its durations and its multiplier are. -/
theorem capped (policy : Backoff) : ∃ bound, policy.Capped bound := by
  have longest := Binary64.place?_ofNat (policy.maxDelay / millisecond)
  refine ⟨Nat.min (Binary64.nearest (policy.maxDelay / millisecond) 1) (twoPow 1024), ?_⟩
  have unchanged : policy.maxDelay / millisecond ≤ twoPow 53 →
      Nat.min (Binary64.nearest (policy.maxDelay / millisecond) 1) (twoPow 1024) =
        policy.maxDelay / millisecond := by
    intro small
    rw [Binary64.nearest_self (Binary64.onGrid_of_le small)]
    exact Nat.min_eq_left (Nat.le_trans small (twoPow_le_twoPow (by decide)))
  generalize Nat.min (Binary64.nearest (policy.maxDelay / millisecond) 1) (twoPow 1024) = bound at *
  have le : ∀ attempt, policy.delay attempt ≤ bound := delay_le longest
  constructor
  case rounded => exact longest
  case unchanged => exact unchanged
  case delay_eq =>
    intro attempt p place
    exact delay_eq longest place
  case delay_of_nan =>
    intro attempt nan
    exact delay_of_nan longest nan
  case delay_le => exact le
  case delay_le_maxDelay =>
    intro small attempt
    have whole : policy.maxDelay / millisecond ≤ twoPow 53 := by
      apply Nat.div_le_of_le_mul
      rwa [Nat.mul_comm]
    have delay : policy.delay attempt ≤ policy.maxDelay / millisecond :=
      unchanged whole ▸ le attempt
    exact (Nat.le_div_iff_mul_le (by decide)).mp delay
  case asleep_le => exact asleep_le le
  case finished => exact policy.finished_eq

/-- Next to not-a-number the longest wait is the smaller. -/
example : { standard with multiplier := .nan }.delay 1 = 5000 := by decide +kernel

/-! ### Doubling -/

/-- The first wait, doubled with every attempt before, but not more than the longest one; in whole
milliseconds. -/
def doubled (policy : Backoff) (attempt : Nat) : Nat :=
  min (policy.initialDelay / millisecond * twoPow attempt) (policy.maxDelay / millisecond)

/-- The multiplier is two, and both durations are exact in milliseconds. -/
structure Doubles (policy : Backoff) : Prop where
  multiplier : policy.multiplier = ofNat 2
  initialDelay_le : policy.initialDelay / millisecond ≤ twoPow 53
  maxDelay_le : policy.maxDelay / millisecond ≤ twoPow 53

/-- The waits of a policy whose multiplier is two. -/
structure Doubling (policy : Backoff) : Prop where
  /-- They double, below attempt 2³¹ and unless there is nothing to double. -/
  doubled : ∀ attempt : UInt32, attempt.toNat < 2 ^ 31 →
    policy.initialDelay / millisecond ≠ 0 ∨ attempt.toNat < 1024 →
    policy.delay attempt = policy.doubled attempt.toNat
  /-- A first wait of nothing is followed by the longest one as soon as the power overflows. -/
  overflow : ∀ attempt : UInt32, attempt.toNat < 2 ^ 31 → policy.initialDelay / millisecond = 0 →
    1024 ≤ attempt.toNat → policy.delay attempt = policy.maxDelay / millisecond
  /-- From attempt 2³¹ on the first wait is divided. -/
  wrapped : ∀ attempt : UInt32, 2 ^ 31 ≤ attempt.toNat → policy.delay attempt =
    min (policy.initialDelay / millisecond / twoPow (2 ^ 32 - attempt.toNat))
      (policy.maxDelay / millisecond)
  /-- Below attempt 2³¹ they never shrink. -/
  mono : ∀ attempt after : UInt32, attempt ≤ after → after.toNat < 2 ^ 31 →
    policy.delay attempt ≤ policy.delay after
  /-- There the longest wait stays reached. -/
  stays : ∀ attempt after : UInt32, attempt ≤ after → after.toNat < 2 ^ 31 →
    policy.delay attempt = policy.maxDelay / millisecond →
    policy.delay after = policy.maxDelay / millisecond

/-- The exponent has a sign: it wraps around at 2³¹. -/
theorem exponent_eq (attempt : UInt32) : exponent attempt =
    if attempt.toNat < 2 ^ 31 then (attempt.toNat : Int) else -((2 ^ 32 - attempt.toNat : Nat) : Int) := by
  have bits : exponent attempt = if 2 * attempt.toNat < 2 ^ 32 then (attempt.toNat : Int)
      else attempt.toNat - 2 ^ 32 := BitVec.toInt_eq_toNat_cond attempt.toBitVec
  have lt := attempt.toNat_lt
  rw [bits]
  split <;> split <;> omega

theorem power_of_lt (lt : attempt.toNat < 2 ^ 31) :
    (ofNat 2).power (exponent attempt) = ofNat (twoPow attempt.toNat) := by
  rw [exponent_eq, if_pos lt, Binary64.power_two]

theorem power_of_le (le : 2 ^ 31 ≤ attempt.toNat) : (ofNat 2).power (exponent attempt) =
    (ofNat (twoPow (2 ^ 32 - attempt.toNat))).reciprocal := by
  have lt := attempt.toNat_lt
  rw [exponent_eq, if_neg (Nat.not_lt.mpr le), Binary64.power_two_neg (by omega)]

theorem place?_longest (exact : policy.maxDelay / millisecond ≤ twoPow 53) :
    (ofNat (policy.maxDelay / millisecond)).place? =
      some ((policy.maxDelay / millisecond * unit : Nat) : Int) := by
  have fits : Nat.min (policy.maxDelay / millisecond) (twoPow 1024) = policy.maxDelay / millisecond :=
    Nat.min_eq_left (Nat.le_trans exact (twoPow_le_twoPow (by decide)))
  rw [Binary64.place?_ofNat_of_onGrid (Binary64.onGrid_of_le exact), fits]

/-- With an exact longest wait, the wait is the smaller of two whole numbers of milliseconds. -/
theorem delay_eq_min {p : Nat} (exact : policy.maxDelay / millisecond ≤ twoPow 53)
    (place : (policy.uncapped attempt).place? = some (p : Int)) :
    policy.delay attempt = min (p / unit) (policy.maxDelay / millisecond) := by
  have bits : policy.maxDelay / millisecond ≤ UInt64.size - 1 := Nat.le_trans exact (by decide)
  rw [delay_eq (place?_longest exact) place, Int.toNat_natCast]
  omega

namespace Doubles

/-- Below attempt 2³¹ the wait doubles, unless nothing meets an overflow. -/
theorem delay_eq_doubled (h : policy.Doubles) (lt : attempt.toNat < 2 ^ 31)
    (exact : policy.initialDelay / millisecond ≠ 0 ∨ attempt.toNat < 1024) :
    policy.delay attempt = policy.doubled attempt.toNat := by
  have product : policy.uncapped attempt =
      ofNat (policy.initialDelay / millisecond * twoPow attempt.toNat) := by
    rw [uncapped, h.multiplier, power_of_lt lt, Binary64.ofNat_mul_twoPow _ exact]
  have place := Binary64.place?_ofNat_of_onGrid
    ((Binary64.onGrid_of_le h.initialDelay_le).mul_twoPow attempt.toNat)
  rw [← product] at place
  rw [delay_eq_min h.maxDelay_le place, Nat.mul_div_cancel _ Binary64.unit_pos, doubled]
  -- an overflow is past the longest wait, as the product that it stands for
  have fits : policy.maxDelay / millisecond ≤ twoPow 1024 :=
    Nat.le_trans h.maxDelay_le (twoPow_le_twoPow (by decide))
  change min (min _ _) _ = _
  generalize twoPow 1024 = bound at *
  omega

/-- Nothing times an overflow is not-a-number, and next to that the longest wait is the smaller. -/
theorem delay_of_overflow (h : policy.Doubles) (lt : attempt.toNat < 2 ^ 31)
    (nothing : policy.initialDelay / millisecond = 0) (large : 1024 ≤ attempt.toNat) :
    policy.delay attempt = policy.maxDelay / millisecond := by
  have product : policy.uncapped attempt = .nan := by
    rw [uncapped, h.multiplier, power_of_lt lt, Binary64.ofNat_of_ge (twoPow_le_twoPow large),
      nothing, Binary64.ofNat_zero]
    rfl
  have bits : policy.maxDelay / millisecond ≤ UInt64.size - 1 :=
    Nat.le_trans h.maxDelay_le (by decide)
  rw [delay_of_nan (place?_longest h.maxDelay_le) product]
  exact Nat.min_eq_left bits

/-- From attempt 2³¹ on the first wait is divided. -/
theorem delay_of_le (h : policy.Doubles) (le : 2 ^ 31 ≤ attempt.toNat) : policy.delay attempt =
    min (policy.initialDelay / millisecond / twoPow (2 ^ 32 - attempt.toNat))
      (policy.maxDelay / millisecond) := by
  obtain ⟨p, place, whole⟩ :=
    Binary64.exists_place?_mul_reciprocal h.initialDelay_le (2 ^ 32 - attempt.toNat)
  rw [← power_of_le le, ← h.multiplier, ← uncapped] at place
  rw [delay_eq_min h.maxDelay_le place, whole]

end Doubles

theorem doubled_mono (policy : Backoff) {a b : Nat} (h : a ≤ b) :
    policy.doubled a ≤ policy.doubled b := by
  have powers := Nat.mul_le_mul_left (policy.initialDelay / millisecond) (twoPow_le_twoPow h)
  unfold doubled
  omega

theorem Doubles.delay_mono (h : policy.Doubles) {attempt after : UInt32} (le : attempt ≤ after)
    (lt : after.toNat < 2 ^ 31) : policy.delay attempt ≤ policy.delay after := by
  have le : attempt.toNat ≤ after.toNat := UInt32.le_iff_toNat_le.mp le
  by_cases exact : policy.initialDelay / millisecond ≠ 0 ∨ after.toNat < 1024
  · have before : policy.initialDelay / millisecond ≠ 0 ∨ attempt.toNat < 1024 :=
      exact.imp_right fun few => by omega
    rw [h.delay_eq_doubled (by omega) before, h.delay_eq_doubled lt exact]
    exact policy.doubled_mono le
  · -- the longest wait is the last of these
    have cap : policy.delay after = policy.maxDelay / millisecond :=
      h.delay_of_overflow lt (by omega) (by omega)
    rw [cap]
    exact delay_le (place?_longest h.maxDelay_le) attempt

/-- **The waits of a policy whose multiplier is two.** -/
theorem doubling (h : policy.Doubles) : policy.Doubling := by
  constructor
  case doubled =>
    intro attempt lt exact
    exact h.delay_eq_doubled lt exact
  case overflow =>
    intro attempt lt nothing large
    exact h.delay_of_overflow lt nothing large
  case wrapped =>
    intro attempt le
    exact h.delay_of_le le
  case mono =>
    intro attempt after le lt
    exact h.delay_mono le lt
  case stays =>
    intro attempt after le lt reached
    have ge := h.delay_mono le lt
    have cap : policy.delay after ≤ policy.maxDelay / millisecond :=
      delay_le (place?_longest h.maxDelay_le) after
    omega

/-- The usual policy, but with as many repetitions as can be counted. -/
def persistent : Backoff := { standard with maxRetries := 4294967295 }

theorem doubles_persistent : persistent.Doubles := ⟨rfl, by decide, by decide⟩

/-- The usual waits reach five seconds and stay there until the exponent wraps around. -/
theorem doubling_persistent : persistent.Doubles ∧ persistent.delay 3 = 4000 ∧
    persistent.delay 2147483647 = 5000 ∧ persistent.delay 4294967294 = 125 := by
  have waits := doubling doubles_persistent
  have third : persistent.delay 3 = 4000 := waits.doubled 3 (by decide) (.inl (by decide))
  have fourth : persistent.delay 4 = 5000 := waits.doubled 4 (by decide) (.inl (by decide))
  have last : persistent.delay 2147483647 = 5000 := waits.stays 4 _ (by decide) (by decide) fourth
  have divided : persistent.delay 4294967294 = 125 := waits.wrapped _ (by decide)
  exact ⟨doubles_persistent, third, last, divided⟩

/-- **Waits do not always double**: after the last attempt that this policy repeats, the wait is 125
milliseconds instead of five seconds. -/
theorem not_doubled : ¬ ∀ policy : Backoff, policy.Doubles → ∀ attempt : UInt32,
    policy.allows attempt = true → policy.delay attempt = policy.doubled attempt.toNat := by
  intro doubled
  have same := doubled persistent doubles_persistent 4294967294 (by decide)
  have short : persistent.delay 4294967294 = 125 := by decide +kernel
  have long : persistent.doubled 4 ≤ persistent.doubled (4294967294 : UInt32).toNat :=
    persistent.doubled_mono (by decide)
  have five : persistent.doubled 4 = 5000 := by decide
  omega

end Backoff

end ProductSegments.Catalog
