import Mathlib.Order.Bounds.Basic
import ProductSegments.Proofs.Catalog.Retry

/-!
# Attempts

A call is repeated until its outcome is final or the policy allows no more repetitions.  When a
call is repeated, it begins as long after the answer to the one before as the policy says, unless
that is longer than the clock can wait.  The attempts are counted with 32 bits, which is enough.

## Main definitions

* `Catalog.isFinal` — an outcome that is never asked for again.
* `Catalog.Backoff.begun` — when a call begins if all calls before it are repeated.
* `Catalog.Turn`, `Catalog.Turn.reached?` — the loop of calls, with its counter.
* `Catalog.Repetition` — how calls are repeated.
* `Catalog.Punctual` — all waits are as long as the policy says.

## Main results

* `Catalog.retryFrom_eq` — the calls that are made from an attempt on.
* `Catalog.repetition_retry` — calls are repeated as they should be, by every policy.
* `Catalog.not_punctual_ages` — waits can be shorter than the policy says.
-/

namespace ProductSegments.Catalog

/-- No policy repeats a call with the outcome: it has brought products, or its failure does not
pass. -/
def isFinal (retryable : Failure → Bool) : Outcome → Bool
  | .ok _ => true
  | .error failure => !retryable failure

/-! ### When calls begin -/

namespace Backoff

/-- When the call with a number begins if all calls before it are repeated. -/
def begun (policy : Backoff) (supplier : Supplier) : Nat → Nat
  | 0 => 0
  | n + 1 => later (later (policy.begun supplier n) (supplier n).delay) (policy.delay (.ofNat n))

/-- When the answer to the call with a number comes if all calls before it are repeated. -/
def answered (policy : Backoff) (supplier : Supplier) (n : Nat) : Nat :=
  later (policy.begun supplier n) (supplier n).delay

variable {policy : Backoff} {retryable : Failure → Bool} {attempt : UInt32} {outcome : Outcome}

theorem wait?_of_isFinal (final : isFinal retryable outcome = true) :
    policy.wait? retryable attempt outcome = Option.none := by
  cases outcome with
  | ok products => rfl
  | error failure =>
    have passes : retryable failure = false := (Bool.not_eq_true' _).mp final
    simp only [wait?, passes, Bool.false_and]
    rfl

theorem wait?_of_le (exhausted : policy.maxRetries.toNat ≤ attempt.toNat) :
    policy.wait? retryable attempt outcome = Option.none := by
  cases h : policy.wait? retryable attempt outcome with
  | none => rfl
  | some wait =>
    have lt := lt_of_wait? h
    omega

theorem wait?_of_lt (final : isFinal retryable outcome = false)
    (lt : attempt.toNat < policy.maxRetries.toNat) :
    policy.wait? retryable attempt outcome = some (policy.delay attempt) := by
  cases outcome with
  | ok products => cases final
  | error failure =>
    have passes : retryable failure = true := (Bool.not_eq_false' _).mp final
    have allowed : policy.allows attempt = true := decide_eq_true (UInt32.lt_iff_toNat_lt.mpr lt)
    rw [wait?, passes, allowed]
    rfl

/-- The numbers of all attempts that a policy allows fit into the counter. -/
theorem toNat_ofNat_of_le (policy : Backoff) {n : Nat} (le : n ≤ policy.maxRetries.toNat) :
    (UInt32.ofNat n).toNat = n := by
  refine UInt32.toNat_ofNat_of_lt' ?_
  exact Nat.lt_of_le_of_lt le policy.maxRetries.toNat_lt

end Backoff

/-! ### The calls that are made -/

section Loop

variable {policy : Backoff} {retryable : Failure → Bool} {supplier : Supplier}

/-- **The calls from an attempt on**: they are repeated up to the call `n`, whose outcome is final
unless the policy allows no repetition of it. -/
theorem retryFrom_eq {left attempt : Nat} (all : attempt + left = policy.maxRetries.toNat) :
    ∃ n, attempt ≤ n ∧ n ≤ policy.maxRetries.toNat ∧
      (∀ i, attempt ≤ i → i < n → isFinal retryable (supplier i).outcome = false) ∧
      (n < policy.maxRetries.toNat → isFinal retryable (supplier n).outcome = true) ∧
      retryFrom policy retryable supplier left attempt (policy.begun supplier attempt) =
        ⟨(List.range' attempt (n + 1 - attempt)).map (policy.begun supplier),
          policy.answered supplier n, (supplier n).outcome⟩ := by
  -- by induction on the repetitions that are left
  induction left generalizing attempt with
  | zero =>
    refine ⟨attempt, Nat.le_refl _, by omega, fun i ge lt => by omega, fun lt => by omega, ?_⟩
    rw [Nat.add_sub_cancel_left]
    rfl
  | succ left ih =>
    have fits : (UInt32.ofNat attempt).toNat = attempt := policy.toNat_ofNat_of_le (by omega)
    cases final : isFinal retryable (supplier attempt).outcome with
    | true =>
      refine ⟨attempt, Nat.le_refl _, by omega, fun i ge lt => by omega, fun _ => final, ?_⟩
      rw [retryFrom_of_none _ _ (Backoff.wait?_of_isFinal final), Nat.add_sub_cancel_left]
      rfl
    | false =>
      have repeats : policy.wait? retryable (.ofNat attempt) (supplier attempt).outcome =
          some (policy.delay (.ofNat attempt)) := Backoff.wait?_of_lt final (by omega)
      obtain ⟨n, ge, le, before, last, rest⟩ := @ih (attempt + 1) (by omega)
      refine ⟨n, by omega, le, ?_, last, ?_⟩
      · intro i ge' lt
        rcases Nat.eq_or_lt_of_le ge' with rfl | gt
        · exact final
        · exact before i gt lt
      · have split : n + 1 - attempt = n + 1 - (attempt + 1) + 1 := by omega
        have rest : retryFrom policy retryable supplier left (attempt + 1)
            (later (later (policy.begun supplier attempt) (supplier attempt).delay)
              (policy.delay (.ofNat attempt))) = _ := rest
        rw [retryFrom.eq_def]
        simp only [repeats]
        rw [rest, split, List.range'_succ, List.map_cons]

/-- The calls of a refresh that is alone. -/
theorem retry_eq (policy : Backoff) (retryable : Failure → Bool) (supplier : Supplier) :
    ∃ n ≤ policy.maxRetries.toNat,
      (∀ i < n, isFinal retryable (supplier i).outcome = false) ∧
      (n < policy.maxRetries.toNat → isFinal retryable (supplier n).outcome = true) ∧
      retry policy retryable supplier = ⟨(List.range (n + 1)).map (policy.begun supplier),
        policy.answered supplier n, (supplier n).outcome⟩ := by
  obtain ⟨n, -, le, before, last, calls⟩ :=
    @retryFrom_eq policy retryable supplier policy.maxRetries.toNat 0 (Nat.zero_add _)
  refine ⟨n, le, fun i lt => before i (Nat.zero_le i) lt, last, ?_⟩
  rw [List.range_eq_range']
  exact calls

end Loop

/-! ### The counter -/

/-- A turn of the loop: the counter of the attempts, the number of the call and when it begins. -/
structure Turn where
  attempt : UInt32
  index : Nat
  begun : Nat

namespace Turn

/-- The turn that comes next, if the call is repeated: the counter goes up by one. -/
def next? (policy : Backoff) (retryable : Failure → Bool) (supplier : Supplier) (t : Turn) :
    Option Turn :=
  (policy.wait? retryable t.attempt (supplier t.index).outcome).map fun wait =>
    ⟨t.attempt + 1, t.index + 1, later (later t.begun (supplier t.index).delay) wait⟩

/-- The turn after a number of others, if the loop comes to it. -/
def reached? (policy : Backoff) (retryable : Failure → Bool) (supplier : Supplier) :
    Nat → Option Turn
  | 0 => some ⟨0, 0, 0⟩
  | n + 1 => (reached? policy retryable supplier n).bind (next? policy retryable supplier)

variable {policy : Backoff} {retryable : Failure → Bool} {supplier : Supplier}

/-- The counter goes with the calls as long as they are repeated. -/
theorem reached?_of_le {n : Nat} (le : n ≤ policy.maxRetries.toNat)
    (repeats : ∀ i < n, isFinal retryable (supplier i).outcome = false) :
    reached? policy retryable supplier n = some ⟨.ofNat n, n, policy.begun supplier n⟩ := by
  induction n with
  | zero => rfl
  | succ n ih =>
    have fits : (UInt32.ofNat n).toNat = n := policy.toNat_ofNat_of_le (by omega)
    have wait : policy.wait? retryable (.ofNat n) (supplier n).outcome =
        some (policy.delay (.ofNat n)) :=
      Backoff.wait?_of_lt (repeats n (Nat.lt_succ_self n)) (by omega)
    have up : UInt32.ofNat n + 1 = .ofNat (n + 1) := by
      rw [UInt32.ofNat_add]
      rfl
    rw [reached?, ih (by omega) fun i lt => repeats i (Nat.lt_succ_of_lt lt), Option.bind_some,
      next?, wait, Option.map_some, up]
    rfl

/-- The loop comes to no turn after that of a call that is not repeated. -/
theorem reached?_succ_eq_none {n : Nat} {t : Turn}
    (turn : reached? policy retryable supplier n = some t)
    (stops : policy.wait? retryable t.attempt (supplier t.index).outcome = none) :
    reached? policy retryable supplier (n + 1) = none := by
  rw [reached?, turn, Option.bind_some, next?, stops]
  rfl

end Turn

/-! ### How calls are repeated -/

/-- How calls are repeated by a policy. -/
structure Repetition (policy : Backoff) (retryable : Failure → Bool) (supplier : Supplier)
    (r : Retried) : Prop where
  /-- Calls are made up to the first one whose outcome is final, but not more than the policy
  allows. -/
  count : ∀ k, IsLeast {i | isFinal retryable (supplier i).outcome = true} k →
    r.calls.length = min k policy.maxRetries.toNat + 1
  /-- If no outcome is final, as many calls are made as the policy allows. -/
  exhausted : (∀ i, isFinal retryable (supplier i).outcome = false) →
    r.calls.length = policy.maxRetries.toNat + 1
  /-- No call comes after one whose outcome is final. -/
  passing : ∀ i, i + 1 < r.calls.length → isFinal retryable (supplier i).outcome = false
  /-- The first call is made at once. -/
  first : r.calls[0]? = some 0
  /-- The next call begins after the wait that the policy asks for, counted from the answer to the
  one before. -/
  next : ∀ i begun, i + 1 < r.calls.length → r.calls[i]? = some begun →
    r.calls[i + 1]? =
      some (later (later begun (supplier i).delay) (policy.delay (.ofNat i)))
  /-- The answer to the last call is the outcome, and nothing is waited for after it. -/
  last : ∃ i begun, i + 1 = r.calls.length ∧ r.calls[i]? = some begun ∧
    r.outcome = (supplier i).outcome ∧ r.finished = later begun (supplier i).delay
  /-- These are the turns of the loop, and its counter is the number of the call in each. -/
  counter : ∀ i < r.calls.length, ∃ t, Turn.reached? policy retryable supplier i = some t ∧
    t.attempt.toNat = i ∧ t.index = i ∧ r.calls[i]? = some t.begun
  /-- The loop comes to no other turn. -/
  stops : Turn.reached? policy retryable supplier r.calls.length = none

/-- **Calls are repeated as they should be**, by every policy, whatever failures pass and whatever
the supplier answers. -/
theorem repetition_retry (policy : Backoff) (retryable : Failure → Bool) (supplier : Supplier) :
    Repetition policy retryable supplier (retry policy retryable supplier) := by
  obtain ⟨n, le, before, last, calls⟩ := retry_eq policy retryable supplier
  rw [calls]
  have length : ((List.range (n + 1)).map (policy.begun supplier)).length = n + 1 := by
    rw [List.length_map, List.length_range]
  have call : ∀ i ≤ n, ((List.range (n + 1)).map (policy.begun supplier))[i]? =
      some (policy.begun supplier i) := by
    intro i hi
    rw [List.getElem?_map, List.getElem?_range (by omega)]
    rfl
  have turn : ∀ i ≤ n, Turn.reached? policy retryable supplier i =
      some ⟨.ofNat i, i, policy.begun supplier i⟩ := by
    intro i hi
    exact Turn.reached?_of_le (by omega) fun j lt => before j (by omega)
  constructor
  case count =>
    rintro k ⟨final, least⟩
    rw [length]
    -- no call before the first final one ends the loop, and that one does
    have ge : n ≤ k := by
      refine Nat.le_of_not_lt ?_
      intro lt
      exact absurd (before k lt) (Bool.not_eq_false _ ▸ final)
    rcases Nat.eq_or_lt_of_le le with eq | lt
    · omega
    · have le' : k ≤ n := least (last lt)
      omega
  case exhausted =>
    intro never
    rw [length]
    rcases Nat.eq_or_lt_of_le le with eq | lt
    · omega
    · exact absurd (never n) (Bool.not_eq_false _ ▸ last lt)
  case passing =>
    intro i lt
    rw [length] at lt
    exact before i (by omega)
  case first => exact call 0 (Nat.zero_le n)
  case next =>
    intro i begun lt at_i
    rw [length] at lt
    obtain rfl := Option.some.inj ((call i (by omega)).symm.trans at_i)
    exact call (i + 1) (by omega)
  case last => exact ⟨n, _, length.symm, call n (Nat.le_refl n), rfl, rfl⟩
  case counter =>
    intro i lt
    rw [length] at lt
    exact ⟨_, turn i (by omega), policy.toNat_ofNat_of_le (by omega), rfl,
      call i (by omega)⟩
  case stops =>
    rw [length]
    refine Turn.reached?_succ_eq_none (turn n (Nat.le_refl n)) ?_
    rcases Nat.eq_or_lt_of_le le with eq | lt
    · refine Backoff.wait?_of_le ?_
      rw [policy.toNat_ofNat_of_le le, eq]
    · exact Backoff.wait?_of_isFinal (last lt)

/-! ### Waits that are cut off -/

/-- All waits between calls are as long as the policy says. -/
def Punctual (policy : Backoff) (retryable : Failure → Bool) (supplier : Supplier) : Prop :=
  ∀ i begun, i + 1 < (retry policy retryable supplier).calls.length →
    (retry policy retryable supplier).calls[i]? = some begun →
    (retry policy retryable supplier).calls[i + 1]? =
      some (later begun (supplier i).delay + policy.delay (.ofNat i))

theorem Punctual.second_call {policy : Backoff} {retryable : Failure → Bool} {supplier : Supplier}
    (punctual : Punctual policy retryable supplier) {first second : Nat} {calls : List Nat}
    (all : (retry policy retryable supplier).calls = first :: second :: calls) :
    second = later first (supplier 0).delay + policy.delay (.ofNat 0) := by
  have begun := punctual 0 first (by rw [all]; exact Nat.succ_lt_succ (Nat.succ_pos _))
    (by rw [all]; rfl)
  rw [all] at begun
  exact Option.some.inj begun

/-- Three repetitions, each after more than thirty years. -/
def Backoff.ages : Backoff :=
  ⟨3, 1000000000000 * millisecond, 1000000000000 * millisecond, .one⟩

/-- A supplier that is late three times before it has products. -/
def tardy : Supplier :=
  let late : Answer := ⟨.error (.timedOut "p"), 0⟩
  .ofList [late, late, late, ⟨.ok [], 0⟩]

/-- **A wait can be shorter than the policy says**: none is longer than thirty years. -/
theorem not_punctual_ages : ¬ Punctual .ages Failure.isRetryable tardy := by
  intro punctual
  have calls : (retry .ages Failure.isRetryable tardy).calls =
      [0, 946080000000, 1892160000000, 2838240000000] := by
    decide +kernel
  exact absurd (punctual.second_call calls) (by decide +kernel)

end ProductSegments.Catalog
