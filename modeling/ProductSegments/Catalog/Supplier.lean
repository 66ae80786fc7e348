import ProductSegments.Catalog.Backoff
import ProductSegments.Catalog.Failure
import ProductSegments.Product.Basic

/-!
# Suppliers

The catalog is asked of a supplier, whose answers take time.  A call that fails may be repeated.

## Main definitions

* `Catalog.later` — the end of a wait.
* `Catalog.Supplier` — the answers to the calls, in the order in which the calls begin.
* `Catalog.Backoff.wait?` — how long to wait before a call is repeated, if it is.
* `Catalog.retry` — calls repeated by a policy, one after the other on a quiet clock.
-/

namespace ProductSegments.Catalog

/-- The longest wait in milliseconds: thirty years of 365 days. -/
def longestWait : Nat := 30 * 365 * 86400000

/-- When a wait ends that begins at `now`.  A wait that would be too long is cut off. -/
def later (now wait : Nat) : Nat := now + Nat.min wait longestWait

/-- The products, or why there are none. -/
abbrev Outcome := Except Failure (List Product)

/-- The supplier's answer to a call. -/
structure Answer where
  outcome : Outcome
  /-- How long the answer takes, in milliseconds. -/
  delay : Nat

/-- The answers to the calls, in the order in which the calls begin. -/
abbrev Supplier := Nat → Answer

/-- The supplier that gives the listed answers, the last one over and over; without any it has no
products. -/
def Supplier.ofList (answers : List Answer) : Supplier := fun n =>
  (answers[n]? <|> answers.getLast?).getD ⟨.ok [], 0⟩

/-- How long to wait before a call with the given outcome is repeated; `none` if it is not. -/
def Backoff.wait? (b : Backoff) (retryable : Failure → Bool) (attempt : UInt32) :
    Outcome → Option Nat
  | .ok _ => Option.none
  | .error failure => if retryable failure && b.allows attempt then some (b.delay attempt) else Option.none

/-- What came of calling a supplier with repetitions. -/
structure Retried where
  /-- When each call began. -/
  calls : List Nat
  /-- When the last answer came. -/
  finished : Nat
  outcome : Outcome

/-- Call number `attempt` at time `now`, with at most `left` repetitions to follow. -/
def retryFrom (b : Backoff) (retryable : Failure → Bool) (supplier : Supplier) :
    (left attempt now : Nat) → Retried
  | left, attempt, now =>
    let answer := supplier attempt
    let answered := later now answer.delay
    match left, b.wait? retryable (.ofNat attempt) answer.outcome with
    | left + 1, some wait =>
      let rest := retryFrom b retryable supplier left (attempt + 1) (later answered wait)
      { rest with calls := now :: rest.calls }
    | _, _ => ⟨[now], answered, answer.outcome⟩

/-- Call a supplier from time zero on, repeating failed calls by a policy. -/
def retry (b : Backoff) (retryable : Failure → Bool) (supplier : Supplier) : Retried :=
  retryFrom b retryable supplier b.maxRetries.toNat 0 0

end ProductSegments.Catalog
