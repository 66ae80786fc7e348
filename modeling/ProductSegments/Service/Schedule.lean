import ProductSegments.Service.World

/-!
# Schedules

A schedule is one order of the steps of a running service.  Everybody who has something to do stands
in a line.  The first who can go on does so until it has to wait, and then goes to the end; so does a
reader when it gets its turn.  One client may be let go before all others.  Time passes only when
nobody can go on.

## Main definitions

* `Service.Agent` — a client or a worker.
* `Service.World.attend` — an agent goes on until it has to wait.
* `Service.Schedule` — a running service with its line.
* `Service.Schedule.rest` — everybody goes on who can; `Service.Schedule.run` — so time passes.
-/

namespace ProductSegments.Service

open Catalog (Visit Worker)

/-- Somebody who goes on in a running service. -/
inductive Agent where
  | client (index : Nat)
  | worker (index : Nat)
  deriving DecidableEq, Repr

namespace Agent

/-- The agent is a client. -/
def isClient : Agent → Bool
  | client _ => true
  | worker _ => false

end Agent

namespace World

/-- Go on with an agent, unless it has to wait.  A worker attends to its channel first. -/
def stepAgent? (setting : Setting) (w : World) : Agent → Option World
  | .client index => w.stepClient? setting index
  | .worker index => w.stepWorker? setting index .channel <|> w.stepWorker? setting index .ticks

/-- Go on with an agent until it has to wait, at most `fuel` steps. -/
def attend (setting : Setting) (agent : Agent) : (fuel : Nat) → World → World
  | 0, w => w
  | fuel + 1, w => match w.stepAgent? setting agent with
    | some w => attend setting agent fuel w
    | none => w

/-- The reader whose turn has come while it was waiting for it. -/
def called? (w : World) : Option Agent :=
  let isCalled : Client → Bool
    | .visiting _ (.queued ticket) => w.catalog.holder = some ticket
    | _ => false
  (w.clients.findIdx? isCalled).map Agent.client

/-- When an agent goes on by itself. -/
def due? (w : World) : Agent → Option Nat
  | .client index => match w.clients[index]? with
    | some (.visiting _ visit) => visit.due?
    | _ => none
  | .worker index => w.workers[index]?.bind Worker.due?

/-- Somebody waits for the service. -/
def isAwaited (w : World) : Bool := w.clients.any fun
  | .visiting .. => true
  | .answered _ => false

end World

/-- A running service with everybody who goes on in it, the next one first. -/
structure Schedule where
  world : World
  line : List Agent
  /-- Who is let go before everybody else. -/
  first? : Option Agent

namespace Schedule

/-- A service that has just started. -/
def initial : Schedule := ⟨.initial, [], none⟩

/-- Put an agent at the end of the line. -/
def toEnd (agent : Agent) (line : List Agent) : List Agent := line.filter (· ≠ agent) ++ [agent]

/-- Attend to an agent.  It goes to the end of the line, and so does a reader that it gives its turn
to. -/
def attend (setting : Setting) (fuel : Nat) (s : Schedule) (agent : Agent) : Schedule :=
  let world := s.world.attend setting agent fuel
  let line := toEnd agent s.line
  if world.catalog.holder = s.world.catalog.holder then { s with world, line }
  else { s with world, line := world.called?.elim line (toEnd · line) }

/-- Let somebody in. -/
def enter (setting : Setting) (fuel : Nat) (s : Schedule) (arrival : World.Arrival) : Schedule :=
  let entered := { s with world := s.world.enter setting arrival }
  entered.attend setting fuel (.client s.world.clients.length)

/-- Let somebody in who goes on before everybody else. -/
def enterFirst (setting : Setting) (fuel : Nat) (s : Schedule) (arrival : World.Arrival) : Schedule :=
  { s.enter setting fuel arrival with first? := some (.client s.world.clients.length) }

/-- Take on a worker. -/
def employ (s : Schedule) (interval : Nat) : Schedule :=
  let worker := Worker.start s.world.catalog.now interval
  { s with
    world := { s.world with workers := s.world.workers ++ [worker] }
    line := s.line ++ [.worker s.world.workers.length] }

/-- Let everybody go whose request has been answered, or who does not wait any longer. -/
def clear (s : Schedule) : Schedule :=
  ⟨{ s.world with clients := [] }, s.line.filter (!·.isClient), none⟩

/-- Who can go on and is the first to be let go. -/
def next? (setting : Setting) (s : Schedule) : Option Agent :=
  (s.first?.toList ++ s.line).find? fun agent => (s.world.stepAgent? setting agent).isSome

/-- Everybody goes on who can without time passing. -/
def rest (setting : Setting) : (fuel : Nat) → Schedule → Schedule
  | 0, s => s
  | fuel + 1, s => match s.next? setting with
    | some agent => rest setting fuel (s.attend setting fuel agent)
    | none => s

/-- When somebody goes on by itself. -/
def due? (s : Schedule) : Option Nat := (s.line.filterMap s.world.due?).min?

/-- Let time pass. -/
def wait (s : Schedule) (duration : Nat) : Schedule := { s with world := s.world.wait duration }

/-- Let time pass up to the end, or until all clients have been answered if there is no end.  Every
rest and every wait takes up fuel. -/
def run (setting : Setting) (finish? : Option Nat) : (fuel : Nat) → Schedule → Schedule
  | 0, s => s
  | fuel + 1, s =>
    let s := s.rest setting fuel
    let now := s.world.catalog.now
    match finish?, s.due? with
    | none, some due =>
      if s.world.isAwaited then run setting finish? fuel (s.wait (due - now)) else s
    | none, none => s
    | some finish, some due =>
      if due ≤ finish then run setting finish? fuel (s.wait (due - now)) else s.wait (finish - now)
    | some finish, none => s.wait (finish - now)

end Schedule

end ProductSegments.Service
