import ProductSegments.Catalog.Cache

/-!
# The refresh worker

A worker refreshes the catalog at regular times until it is told to stop.  It looks at its channel
only between refreshes.

## Main definitions

* `Catalog.Channel` — the channel over which a worker is told to stop.
* `Catalog.Worker` — a worker between or inside refreshes, or stopped.
* `Catalog.Worker.nextDue` — when the next tick is due.
* `Catalog.Worker.tick`, `Catalog.Worker.observe`, `Catalog.Worker.proceed` — the steps of a worker.
-/

namespace ProductSegments.Catalog

/-- A channel that holds the value sent last. -/
structure Channel where
  value : Bool
  /-- A value has been sent that the receiver has not looked at. -/
  isFresh : Bool
  /-- There is no sender any more. -/
  isClosed : Bool
  deriving DecidableEq, Repr

/-- A channel on which nothing has been sent. -/
def Channel.new : Channel := ⟨false, false, false⟩

/-- What a worker is doing. -/
inductive Activity where
  /-- Waiting for the tick that is due at a time. -/
  | idle (due : Nat)
  /-- Refreshing; the next tick is due at a time. -/
  | busy (due : Nat) (cycle : Cycle)
  | stopped
  deriving DecidableEq, Repr

/-- A worker. -/
structure Worker where
  /-- The time between ticks, in milliseconds. -/
  interval : Nat
  activity : Activity
  channel : Channel
  deriving DecidableEq, Repr

namespace Worker

/-- A worker whose first tick is due at once.  Without an interval it cannot work. -/
def start (now interval : Nat) : Worker :=
  ⟨interval, if interval = 0 then .stopped else .idle now, .new⟩

/-- When the tick after one is due that was due at `due` and is taken at `now`.  A tick may be taken
a little late; after a long delay the next one is a whole interval away. -/
def nextDue (interval due now : Nat) : Nat := if due + 5 < now then now + interval else due + interval

/-- Take a tick that is due, and begin a refresh. -/
def tick (terms : Terms) (s : State) (w : Worker) : Option (State × Worker) :=
  match w.activity with
  | .idle due =>
    if due ≤ s.now then
      let (s', cycle) := s.startCycle terms
      some (s', { w with activity := .busy (nextDue w.interval due s.now) cycle })
    else none
  | _ => none

/-- Look at the channel if there is something new: stop if it holds `true` or has no sender. -/
def observe (w : Worker) : Option Worker :=
  match w.activity with
  | .idle _ =>
    if w.channel.isFresh then
      let seen := { w with channel := { w.channel with isFresh := false } }
      some (if w.channel.value then { seen with activity := .stopped } else seen)
    else if w.channel.isClosed then some { w with activity := .stopped }
    else none
  | _ => none

/-- Go on with a refresh. -/
def proceed (terms : Terms) (s : State) (w : Worker) : Option (State × Worker) :=
  match w.activity with
  | .busy due cycle => match cycle.step terms s with
    | none => none
    | some (s, .inl cycle) => some (s, { w with activity := .busy due cycle })
    | some (s, .inr outcome) => some (s.conclude outcome, { w with activity := .idle due })
  | _ => none

/-- When a worker goes on by itself. -/
def due? (w : Worker) : Option Nat :=
  match w.activity with
  | .idle due => some due
  | .busy _ cycle => some cycle.due
  | .stopped => none

/-- The worker is at work. -/
def isRunning (w : Worker) : Bool := w.activity ≠ .stopped

/-- Send a value to a worker; a stopped worker does not receive it. -/
def send (value : Bool) (w : Worker) : Worker :=
  if w.isRunning then { w with channel := { w.channel with value, isFresh := true } } else w

/-- Take the sender away from a worker. -/
def close (w : Worker) : Worker := { w with channel := { w.channel with isClosed := true } }

end Worker

end ProductSegments.Catalog
