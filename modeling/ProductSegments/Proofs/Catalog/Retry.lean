import ProductSegments.Proofs.Catalog.Steps

/-!
# Repeated calls

A refresh under way makes the calls that `Catalog.retry` makes, if nobody else calls the supplier
meanwhile: only the clock is another one.

## Main definitions

* `Catalog.Terms.refreshFrom` — the refresh whose first call has a given number.
* `Catalog.Terms.firstCall`, `Catalog.Terms.refreshAt` — refreshes one after the other.
* `Catalog.Terms.Reaches` — a refresh comes to an attempt.
* `Catalog.Cycle.OnCourse` — what is under way is that refresh.

## Main results

* `Catalog.retryFrom_clock` — outcome and number of calls do not depend on the clock.
* `Catalog.Cycle.OnCourse.onward`, `Catalog.Cycle.OnCourse.ending` — a refresh under way stays on
  course, and ends as it should.
-/

namespace ProductSegments.Catalog

/-! ### Attempts -/

namespace Backoff

variable {policy : Backoff} {retryable : Failure → Bool} {attempt : UInt32} {outcome : Outcome}
  {wait : Nat}

/-- An attempt that is repeated is not the last one. -/
theorem lt_of_wait? (h : policy.wait? retryable attempt outcome = some wait) :
    attempt.toNat < policy.maxRetries.toNat := by
  cases outcome with
  | ok products => cases h
  | error failure =>
    simp only [wait?] at h
    split at h
    · next allowed =>
      rw [Bool.and_eq_true] at allowed
      exact UInt32.lt_iff_toNat_lt.mp (of_decide_eq_true allowed.2)
    · cases h

/-- The number of the attempt after one that is repeated. -/
theorem toNat_succ_of_wait? (h : policy.wait? retryable attempt outcome = some wait) :
    (attempt + 1).toNat = attempt.toNat + 1 := by
  have lt := lt_of_wait? h
  have bound := policy.maxRetries.toNat_lt
  rw [UInt32.toNat_add]
  show (attempt.toNat + 1) % 2 ^ 32 = _
  exact Nat.mod_eq_of_lt (by omega)

end Backoff

/-! ### The loop -/

section Loop

variable {policy : Backoff} {retryable : Failure → Bool} {supplier : Supplier} {attempt : Nat}

/-- A call that is not repeated is the last one. -/
theorem retryFrom_of_none (left now : Nat)
    (h : policy.wait? retryable (.ofNat attempt) (supplier attempt).outcome = none) :
    retryFrom policy retryable supplier left attempt now =
      ⟨[now], later now (supplier attempt).delay, (supplier attempt).outcome⟩ := by
  cases left with
  | zero => rfl
  | succ left =>
    unfold retryFrom
    simp only [h]

/-- After a call that is repeated come the others. -/
theorem retryFrom_of_some (left now : Nat) {wait : Nat}
    (h : policy.wait? retryable (.ofNat attempt) (supplier attempt).outcome = some wait) :
    ∃ now', retryFrom policy retryable supplier (left + 1) attempt now =
      { retryFrom policy retryable supplier left (attempt + 1) now' with
        calls := now :: (retryFrom policy retryable supplier left (attempt + 1) now').calls } := by
  refine ⟨later (later now (supplier attempt).delay) wait, ?_⟩
  rw [retryFrom.eq_def]
  simp only [h]

/-- **The clock does not matter** for how often a supplier is called and what comes of it. -/
theorem retryFrom_clock (left attempt now now' : Nat) :
    (retryFrom policy retryable supplier left attempt now).outcome =
      (retryFrom policy retryable supplier left attempt now').outcome ∧
    (retryFrom policy retryable supplier left attempt now).calls.length =
      (retryFrom policy retryable supplier left attempt now').calls.length := by
  -- only the waits depend on the clock, and they decide nothing
  induction left generalizing attempt now now' with
  | zero => exact ⟨rfl, rfl⟩
  | succ left ih =>
    cases h : policy.wait? retryable (.ofNat attempt) (supplier attempt).outcome with
    | none =>
      rw [retryFrom_of_none _ now h, retryFrom_of_none _ now' h]
      exact ⟨rfl, rfl⟩
    | some wait =>
      obtain ⟨next, hn⟩ := retryFrom_of_some left now h
      obtain ⟨next', hn'⟩ := retryFrom_of_some left now' h
      obtain ⟨outcome, length⟩ := ih (attempt + 1) next next'
      rw [hn, hn']
      exact ⟨outcome, congrArg (· + 1) length⟩

end Loop

/-! ### Refreshes by number -/

/-- The answers from a call on. -/
def Supplier.drop (supplier : Supplier) (first : Nat) : Supplier := fun n => supplier (first + n)

namespace Terms

/-- The refresh whose first call has the given number, as if it were alone. -/
def refreshFrom (terms : Terms) (first : Nat) : Retried :=
  retry terms.policy Failure.isRetryable (terms.supplier.drop first)

/-- What is left of a refresh from an attempt on. -/
def restFrom (terms : Terms) (first attempt : Nat) : Retried :=
  retryFrom terms.policy Failure.isRetryable (terms.supplier.drop first)
    (terms.policy.maxRetries.toNat - attempt) attempt 0

/-- Where the calls of the given refresh begin if refreshes come one after the other, the first of
them with call number `base`. -/
def firstCall (terms : Terms) (base : Nat) : Nat → Nat
  | 0 => base
  | i + 1 => terms.firstCall base i + (terms.refreshFrom (terms.firstCall base i)).calls.length

/-- The given one of refreshes that come one after the other. -/
def refreshAt (terms : Terms) (base i : Nat) : Retried :=
  terms.refreshFrom (terms.firstCall base i)

/-- A refresh comes to an attempt: it ends as what is left of it, after the calls before. -/
structure Reaches (terms : Terms) (first attempt : Nat) : Prop where
  outcome : (terms.refreshFrom first).outcome = (terms.restFrom first attempt).outcome
  calls : (terms.refreshFrom first).calls.length =
    attempt + (terms.restFrom first attempt).calls.length

variable {terms : Terms} {first : Nat}

theorem reaches_zero (terms : Terms) (first : Nat) : terms.Reaches first 0 :=
  ⟨rfl, (Nat.zero_add _).symm⟩

/-- After an attempt that is repeated a refresh comes to the next one. -/
theorem Reaches.succ {attempt : UInt32} {wait : Nat} (h : terms.Reaches first attempt.toNat)
    (repeats : terms.policy.wait? Failure.isRetryable attempt
      (terms.supplier (first + attempt.toNat)).outcome = some wait) :
    terms.Reaches first (attempt + 1).toNat := by
  have lt := Backoff.lt_of_wait? repeats
  -- the loop has an attempt left, so it goes on with the next one
  have left : terms.policy.maxRetries.toNat - attempt.toNat =
      terms.policy.maxRetries.toNat - (attempt.toNat + 1) + 1 := by omega
  have again : terms.policy.wait? Failure.isRetryable (.ofNat attempt.toNat)
      (terms.supplier.drop first attempt.toNat).outcome = some wait := by
    rw [UInt32.ofNat_toNat]
    exact repeats
  obtain ⟨now, hn⟩ :=
    retryFrom_of_some (terms.policy.maxRetries.toNat - (attempt.toNat + 1)) 0 again
  have clock : (retryFrom terms.policy Failure.isRetryable (terms.supplier.drop first)
        (terms.policy.maxRetries.toNat - (attempt.toNat + 1)) (attempt.toNat + 1) now).outcome =
        (terms.restFrom first (attempt.toNat + 1)).outcome ∧
      (retryFrom terms.policy Failure.isRetryable (terms.supplier.drop first)
        (terms.policy.maxRetries.toNat - (attempt.toNat + 1)) (attempt.toNat + 1) now).calls.length =
        (terms.restFrom first (attempt.toNat + 1)).calls.length := retryFrom_clock ..
  rw [Backoff.toNat_succ_of_wait? repeats]
  constructor
  · rw [h.outcome, restFrom, left, hn]
    exact clock.1
  · rw [h.calls, restFrom, left, hn, List.length_cons, clock.2]
    omega

/-- A refresh ends with an attempt that is not repeated. -/
theorem Reaches.last {attempt : UInt32} (h : terms.Reaches first attempt.toNat)
    (stops : terms.policy.wait? Failure.isRetryable attempt
      (terms.supplier (first + attempt.toNat)).outcome = none) :
    (terms.refreshFrom first).outcome = (terms.supplier (first + attempt.toNat)).outcome ∧
      (terms.refreshFrom first).calls.length = attempt.toNat + 1 := by
  have stop : terms.policy.wait? Failure.isRetryable (.ofNat attempt.toNat)
      (terms.supplier.drop first attempt.toNat).outcome = none := by
    rw [UInt32.ofNat_toNat]
    exact stops
  have rest := retryFrom_of_none (terms.policy.maxRetries.toNat - attempt.toNat) 0 stop
  rw [h.outcome, h.calls, restFrom, rest]
  exact ⟨rfl, rfl⟩

end Terms

/-! ### Refreshes under way -/

namespace Cycle

variable {terms : Terms} {first : Nat} {s s' : State} {cycle next : Cycle}

/-- What is under way is the refresh whose first call has the given number, and all calls since have
been its own; `count` calls have begun in all. -/
inductive OnCourse (terms : Terms) (first count : Nat) : Cycle → Prop where
  | calling {attempt : UInt32} {call : Call} (reaches : terms.Reaches first attempt.toNat)
      (index : call.index = first + attempt.toNat) (latest : count = call.index + 1) :
      OnCourse terms first count (.calling attempt call)
  | resting {attempt : UInt32} {due : Nat} (reaches : terms.Reaches first attempt.toNat)
      (latest : count = first + attempt.toNat) : OnCourse terms first count (.resting attempt due)

theorem onCourse_call (terms : Terms) (s : State) :
    OnCourse terms s.calls.length (s.call terms).1.calls.length
      (.calling 0 (s.call terms).2) :=
  .calling (terms.reaches_zero _) rfl rfl

theorem OnCourse.onward (h : OnCourse terms first s.calls.length cycle)
    (step : Onward terms s cycle s' next) : OnCourse terms first s'.calls.length next := by
  cases step with
  | rest due repeats =>
    cases h with
    | calling reaches index latest =>
      -- no call begins now, and the next attempt comes right after those that have been made
      rw [index] at repeats
      refine .resting (reaches.succ repeats) ?_
      rw [latest, index, Backoff.toNat_succ_of_wait? repeats]
      omega
  | again passed =>
    cases h with
    | resting reaches latest => exact .calling reaches latest rfl

/-- **A refresh ends as if it were alone**, and after as many calls. -/
theorem OnCourse.ending {e : Ending} (h : OnCourse terms first s.calls.length cycle)
    (ends : cycle.ending? terms s = some e) :
    e.outcome = (terms.refreshFrom first).outcome ∧
      s.calls.length = first + (terms.refreshFrom first).calls.length := by
  obtain ⟨attempt, rfl, -, outcome, stops⟩ := ending?_eq_some_iff.mp ends
  cases h with
  | calling reaches index latest =>
    rw [outcome, index] at stops
    obtain ⟨last, count⟩ := reaches.last stops
    rw [outcome, index, latest, index, last, count]
    exact ⟨rfl, by omega⟩

end Cycle

end ProductSegments.Catalog
