import ProductSegments.Catalog.Worker

/-!
# Redacted failures

A failure says more than what goes wrong: how that is worded, which service is meant, and with
which status it answered.  All of that can be struck out.  Whether a call is repeated, what is kept
and when anything happens depend on what is left only, so a step of a catalog whose supplier gives
redacted answers is the step of the catalog itself, with its outcome redacted.

## Main definitions

* `Catalog.Failure.Alike`, `Catalog.Outcome.Alike`, `Catalog.Supplier.Alike` — failures, outcomes
  and suppliers that differ in details of failures only.
* `Catalog.Failure.redacted` — a failure without its details.
* `Catalog.Outcome.redacted`, `Catalog.Supplier.redacted`, `Catalog.Terms.redacted` — the same for
  what a call gives, for all calls, and for the terms with such a supplier.

## Main results

* `Catalog.Supplier.Alike.redacted_eq` — such suppliers are one when redacted.
* `Catalog.Cycle.step_redacted`, `Catalog.Visit.step_redacted`, `Catalog.Worker.proceed_redacted` —
  details have no influence on refreshes, visits and workers.
-/

namespace ProductSegments.Catalog

/-! ### What is struck out -/

/-- The failure without its details.  Of a status it is left whether the supplier is in trouble
itself. -/
def Failure.redacted : Failure → Failure
  | unavailable _ => unavailable ""
  | status code => status (if 500 ≤ code then 500 else 0)
  | rejected => rejected
  | undecodable _ => undecodable ""
  | timedOut _ => timedOut ""
  | internal _ => internal ""

namespace Failure

@[simp] theorem code_redacted (f : Failure) : f.redacted.code = f.code := by
  cases f <;> rfl

@[simp] theorem isRetryable_redacted (f : Failure) : f.redacted.isRetryable = f.isRetryable := by
  cases f with
  | status code =>
    by_cases h : 500 ≤ code
    · simp [redacted, isRetryable, h]
    · simp [redacted, isRetryable, h]
  | unavailable reason => rfl
  | rejected => rfl
  | undecodable reason => rfl
  | timedOut service => rfl
  | internal reason => rfl

end Failure

/-- Two failures are of the same kind, whatever else they say: of two statuses both show that the
supplier is in trouble itself, or neither does. -/
inductive Failure.Alike : Failure → Failure → Prop where
  | unavailable (reason reason' : String) : Alike (.unavailable reason) (.unavailable reason')
  | status {code code' : Nat} (same : 500 ≤ code ↔ 500 ≤ code') :
      Alike (.status code) (.status code')
  | rejected : Alike .rejected .rejected
  | undecodable (reason reason' : String) : Alike (.undecodable reason) (.undecodable reason')
  | timedOut (service service' : String) : Alike (.timedOut service) (.timedOut service')
  | internal (reason reason' : String) : Alike (.internal reason) (.internal reason')

theorem Failure.Alike.redacted_eq {f g : Failure} (h : f.Alike g) : f.redacted = g.redacted := by
  cases h with
  | status same => simp only [redacted, same]
  | unavailable reason reason' => rfl
  | rejected => rfl
  | undecodable reason reason' => rfl
  | timedOut service service' => rfl
  | internal reason reason' => rfl

/-- Two outcomes give the same products or failures of the same kind. -/
inductive Outcome.Alike : Outcome → Outcome → Prop where
  | ok (products : List Product) : Alike (.ok products) (.ok products)
  | error {f g : Failure} (same : f.Alike g) : Alike (.error f) (.error g)

/-- Two suppliers give the same products and failures of the same kinds, and take the same time. -/
def Supplier.Alike (supplier supplier' : Supplier) : Prop :=
  ∀ call, (supplier call).outcome.Alike (supplier' call).outcome ∧
    (supplier call).delay = (supplier' call).delay

/-- The outcome with its failure redacted. -/
def Outcome.redacted : Outcome → Outcome
  | .ok products => .ok products
  | .error failure => .error failure.redacted

theorem Outcome.Alike.redacted_eq {o o' : Outcome} (h : o.Alike o') : o.redacted = o'.redacted := by
  cases h with
  | ok products => rfl
  | error same => simp only [redacted, same.redacted_eq]

/-- The supplier that gives the same answers with their failures redacted. -/
def Supplier.redacted (supplier : Supplier) : Supplier := fun call =>
  { supplier call with outcome := (supplier call).outcome.redacted }

theorem Supplier.Alike.redacted_eq {supplier supplier' : Supplier} (h : supplier.Alike supplier') :
    supplier.redacted = supplier'.redacted := by
  funext call
  obtain ⟨outcome, delay⟩ := h call
  simp only [redacted, outcome.redacted_eq, delay]

/-- The terms with the redacted supplier. -/
def Terms.redacted (terms : Terms) : Terms := { terms with supplier := terms.supplier.redacted }

/-! ### Refreshes -/

@[simp] theorem Backoff.wait?_redacted (b : Backoff) (attempt : UInt32) (outcome : Outcome) :
    b.wait? Failure.isRetryable attempt outcome.redacted =
      b.wait? Failure.isRetryable attempt outcome := by
  cases outcome with
  | ok products => rfl
  | error failure => simp only [Outcome.redacted, wait?, Failure.isRetryable_redacted]

@[simp] theorem State.call_redacted (s : State) (terms : Terms) :
    s.call terms.redacted = s.call terms := rfl

@[simp] theorem State.conclude_redacted (s : State) (outcome : Outcome) :
    s.conclude outcome.redacted = s.conclude outcome := by
  cases outcome <;> rfl

/-- What a step comes to, with its outcome redacted if there is one. -/
def redactedResult {α : Type} (result : State × (α ⊕ Outcome)) : State × (α ⊕ Outcome) :=
  (result.1, result.2.map id Outcome.redacted)

theorem Cycle.step_redacted (terms : Terms) (s : State) (cycle : Cycle) :
    cycle.step terms.redacted s = (cycle.step terms s).map redactedResult := by
  cases cycle with
  | calling attempt call =>
    have outcome : (terms.redacted.supplier call.index).outcome =
        (terms.supplier call.index).outcome.redacted := rfl
    have policy : terms.redacted.policy = terms.policy := rfl
    simp only [step, outcome, policy, Backoff.wait?_redacted]
    by_cases due : call.due ≤ s.now
    · rw [if_pos due, if_pos due]
      -- the policy looks at the redacted failure, and decides the same
      cases terms.policy.wait? Failure.isRetryable attempt (terms.supplier call.index).outcome with
      | none => rfl
      | some wait => rfl
    · rw [if_neg due, if_neg due]
      rfl
  | resting attempt due =>
    simp only [step, State.call_redacted]
    by_cases passed : due ≤ s.now
    · rw [if_pos passed]
      rfl
    · rw [if_neg passed]
      rfl

/-! ### Visits -/

theorem State.takeTurn_redacted (s : State) (terms : Terms) :
    s.takeTurn terms.redacted = s.takeTurn terms := rfl

/-- A visit that begins ends at once with products only. -/
theorem State.redactedResult_takeTurn (s : State) (terms : Terms) :
    redactedResult (s.takeTurn terms) = s.takeTurn terms := by
  unfold takeTurn
  cases s.snapshot with
  | some products => rfl
  | none => rfl

theorem State.redactedResult_read (s : State) (terms : Terms) :
    redactedResult (s.read terms) = s.read terms := by
  unfold read
  cases s.snapshot with
  | some products => rfl
  | none =>
    cases s.holder with
    | some ticket => rfl
    | none => exact redactedResult_takeTurn _ terms

theorem Visit.step_redacted (terms : Terms) (s : State) (visit : Visit) :
    visit.step terms.redacted s = (visit.step terms s).map redactedResult := by
  cases visit with
  | queued ticket =>
    simp only [step, State.takeTurn_redacted]
    by_cases turn : s.holder = some ticket
    · rw [if_pos turn, Option.map_some, State.redactedResult_takeTurn]
    · rw [if_neg turn]
      rfl
  | loading cycle =>
    simp only [step, Cycle.step_redacted]
    cases cycle.step terms s with
    | none => rfl
    | some result =>
      obtain ⟨s, next | outcome⟩ := result
      · rfl
      · cases outcome <;> rfl
  | refreshing cycle =>
    simp only [step, Cycle.step_redacted]
    cases cycle.step terms s with
    | none => rfl
    | some result =>
      obtain ⟨s, next | outcome⟩ := result
      · rfl
      · cases outcome <;> rfl
  | asking call =>
    have due : ∀ answer : Prop, [Decidable answer] → ∀ result : State × (Visit ⊕ Outcome),
        (if answer then some (redactedResult result) else none) =
          (if answer then some result else none).map redactedResult := by
      intro answer _ result
      split <;> rfl
    exact due (call.due ≤ s.now) (s, .inr (terms.supplier call.index).outcome)

/-! ### Workers -/

theorem Worker.tick_redacted (terms : Terms) (s : State) (worker : Worker) :
    worker.tick terms.redacted s = worker.tick terms s := rfl

/-- A worker tells nobody why a refresh has failed. -/
theorem Worker.proceed_redacted (terms : Terms) (s : State) (worker : Worker) :
    worker.proceed terms.redacted s = worker.proceed terms s := by
  unfold proceed
  cases worker.activity with
  | idle due => rfl
  | stopped => rfl
  | busy due cycle =>
    simp only [Cycle.step_redacted]
    cases cycle.step terms s with
    | none => rfl
    | some result =>
      obtain ⟨s, next | outcome⟩ := result
      · rfl
      · simp only [Option.map_some, redactedResult, Sum.map_inr, State.conclude_redacted]

end ProductSegments.Catalog
