import ProductSegments.Catalog.Supplier
import ProductSegments.Metrics

/-!
# The cached catalog

The service keeps the products that the last successful refresh brought.  As long as there are none,
readers queue up, and the first of them refreshes the catalog on behalf of all.

Everything that takes time is cut into steps at the points where it waits.  A step is a function
on the state that is `none` while there is nothing to do but wait, so that any order of steps of
any number of visits and workers can be talked about.

## Main definitions

* `Catalog.State` — the clock, the calls begun, the snapshot and the queue of readers.
* `Catalog.Cycle` — a refresh under way: calls and the waits between them.
* `Catalog.Visit` — a read, a refresh on request or a direct call under way.
* `Catalog.State.read`, `Catalog.State.refresh`, `Catalog.State.ask` — the three ways to begin a
  visit; `Catalog.Visit.step` goes on with it.
-/

namespace ProductSegments.Catalog

/-- Whom to ask, and how persistently. -/
structure Terms where
  supplier : Supplier
  policy : Backoff

/-- What is known of the catalog. -/
structure State where
  /-- The time in milliseconds. -/
  now : Nat
  /-- When the calls to the supplier began, the latest first. -/
  calls : List Nat
  /-- The products of the last successful refresh. -/
  snapshot : Option (List Product)
  /-- The ticket of the reader that may refresh. -/
  holder : Option Nat
  /-- The tickets of the readers behind it. -/
  queue : List Nat
  /-- How many tickets have been given out. -/
  tickets : Nat
  metrics : Metrics

/-- Nothing has happened. -/
def State.initial : State := ⟨0, [], none, none, [], 0, .empty⟩

/-- A call to the supplier that is under way. -/
structure Call where
  /-- How many calls began before it. -/
  index : Nat
  begun : Nat
  /-- When the answer comes. -/
  due : Nat
  deriving DecidableEq, Repr

/-- Begin a call. -/
def State.call (s : State) (terms : Terms) : State × Call :=
  let index := s.calls.length
  ({ s with calls := s.now :: s.calls }, ⟨index, s.now, later s.now (terms.supplier index).delay⟩)

/-! ### Refreshes -/

/-- A refresh under way. -/
inductive Cycle where
  /-- The given attempt is being made. -/
  | calling (attempt : UInt32) (call : Call)
  /-- The given attempt comes next. -/
  | resting (attempt : UInt32) (due : Nat)
  deriving DecidableEq, Repr

/-- When a cycle goes on. -/
def Cycle.due : Cycle → Nat
  | calling _ call => call.due
  | resting _ due => due

/-- Begin a refresh. -/
def State.startCycle (s : State) (terms : Terms) : State × Cycle :=
  let (s, call) := s.call terms
  (s, .calling 0 call)

/-- Go on with a refresh up to its next wait, or to the outcome of its last call. -/
def Cycle.step (terms : Terms) (s : State) : Cycle → Option (State × (Cycle ⊕ Outcome))
  | calling attempt call =>
    if call.due ≤ s.now then
      let outcome := (terms.supplier call.index).outcome
      match terms.policy.wait? Failure.isRetryable attempt outcome with
      | some wait => some (s, .inl (.resting (attempt + 1) (later s.now wait)))
      | none => some (s, .inr outcome)
    else none
  | resting attempt due =>
    if due ≤ s.now then
      let (s, call) := s.call terms
      some (s, .inl (.calling attempt call))
    else none

/-- Take in the outcome of a refresh: products replace the snapshot, a failure leaves it as it is. -/
def State.conclude (s : State) : Outcome → State
  | .ok products =>
    { s with snapshot := some products, metrics := s.metrics.refreshed (some products.length) }
  | .error _ => { s with metrics := s.metrics.refreshed none }

/-! ### Visits -/

/-- A visit to the catalog that is under way. -/
inductive Visit where
  /-- A reader waits for its turn to refresh. -/
  | queued (ticket : Nat)
  /-- A reader refreshes. -/
  | loading (cycle : Cycle)
  /-- A refresh on request. -/
  | refreshing (cycle : Cycle)
  /-- A call to the supplier without a cache. -/
  | asking (call : Call)
  deriving DecidableEq, Repr

/-- When a visit goes on, unless it waits for another one. -/
def Visit.due? : Visit → Option Nat
  | queued _ => none
  | loading cycle | refreshing cycle => some cycle.due
  | asking call => some call.due

/-- Let the next reader in the queue have its turn. -/
def State.release (s : State) : State := { s with holder := s.queue.head?, queue := s.queue.tail }

/-- The turn of a reader: the snapshot if there is one by now, else a refresh. -/
def State.takeTurn (s : State) (terms : Terms) : State × (Visit ⊕ Outcome) :=
  match s.snapshot with
  | some products => (s.release, .inr (.ok products))
  | none =>
    let (s, cycle) := s.startCycle terms
    (s, .inl (.loading cycle))

/-- Read the catalog: the snapshot if there is one, else a turn to refresh. -/
def State.read (s : State) (terms : Terms) : State × (Visit ⊕ Outcome) :=
  match s.snapshot with
  | some products => (s, .inr (.ok products))
  | none =>
    let ticket := s.tickets
    let s := { s with tickets := ticket + 1 }
    match s.holder with
    | none => { s with holder := some ticket }.takeTurn terms
    | some _ => ({ s with queue := s.queue ++ [ticket] }, .inl (.queued ticket))

/-- Refresh the catalog whether or not there is a snapshot. -/
def State.refresh (s : State) (terms : Terms) : State × (Visit ⊕ Outcome) :=
  let (s, cycle) := s.startCycle terms
  (s, .inl (.refreshing cycle))

/-- Ask the supplier and keep nothing. -/
def State.ask (s : State) (terms : Terms) : State × (Visit ⊕ Outcome) :=
  let (s, call) := s.call terms
  (s, .inl (.asking call))

/-- Go on with a visit up to its next wait or to its end. -/
def Visit.step (terms : Terms) (s : State) : Visit → Option (State × (Visit ⊕ Outcome))
  | queued ticket => if s.holder = some ticket then some (s.takeTurn terms) else none
  | loading cycle => match cycle.step terms s with
    | none => none
    | some (s, .inl cycle) => some (s, .inl (.loading cycle))
    | some (s, .inr outcome) =>
      let s := s.conclude outcome
      -- A successful reader returns what is kept by now.
      some (s.release, .inr (outcome.map fun _ => s.snapshot.getD []))
  | refreshing cycle => match cycle.step terms s with
    | none => none
    | some (s, .inl cycle) => some (s, .inl (.refreshing cycle))
    | some (s, .inr outcome) => some (s.conclude outcome, .inr outcome)
  | asking call =>
    if call.due ≤ s.now then some (s, .inr (terms.supplier call.index).outcome) else none

end ProductSegments.Catalog
