import ProductSegments.Catalog.Worker
import ProductSegments.Service.Route
import ProductSegments.Web.RequestId

/-!
# The running service

A running service is the state of its catalog together with its clients and workers.  It goes on by
steps of single clients and workers, in any order, and by the passing of time.

## Main definitions

* `Service.Setting` — how a service is set up.
* `Service.Client` — somebody who waits for the service, or has been answered.
* `Service.World` — the state of a running service.
* `Service.World.enter`, `Service.World.stepClient?`, `Service.World.stepWorker?` — its steps;
  `Service.World.Step` says what all can happen next.
-/

namespace ProductSegments.Service

open Catalog (State Visit Worker Outcome)

/-- How a service is set up. -/
structure Setting where
  terms : Catalog.Terms
  /-- The catalog is kept between requests. -/
  isCached : Bool
  /-- Requests have ids, and their responses are counted. -/
  isLayered : Bool
  /-- The evaluation of rules is traced. -/
  isTraced : Bool
  /-- The origins that may use the service, if that is looked after. -/
  cors? : Option Web.Cors
  routes : Routes
  /-- The ids for requests that were sent without one. -/
  freshId : Nat → List Char
  /-- How rejected requests are told why. -/
  wording : Wording := .brief

/-- The response to a request with an id, or the order that leads to it. -/
def Setting.plan (setting : Setting) (id : List Char) (r : Web.Request) : Web.Response ⊕ Order :=
  guardedPlan setting.cors? setting.wording setting.routes id r

/-- A request that is being served. -/
structure Exchange where
  request : Web.Request
  id : List Char
  order : Order
  deriving DecidableEq

/-- What somebody wants of the service. -/
inductive Purpose where
  /-- To read the catalog. -/
  | fetch
  /-- To refresh the catalog. -/
  | refresh
  /-- To have a request answered. -/
  | serve (exchange : Exchange)
  deriving DecidableEq

/-- What somebody got from the service. -/
inductive Reply where
  | outcome (outcome : Outcome)
  | response (response : Web.Response)

/-- Somebody who waits for the service, or has been answered. -/
inductive Client where
  | visiting (purpose : Purpose) (visit : Visit)
  | answered (reply : Reply)

/-- The state of a running service. -/
structure World where
  catalog : State
  clients : List Client
  workers : List Worker
  /-- How many ids have been made up. -/
  ids : Nat
  /-- The lines about traced rules. -/
  log : List String

/-- A service that has just started. -/
def World.initial : World := ⟨.initial, [], [], 0, []⟩

namespace World

/-- Send the response to a request: say who may see it, count it, and mark it with the id. -/
def send (setting : Setting) (w : World) (request : Web.Request) (id : List Char)
    (response : Web.Response) : World × Reply :=
  let response := headOnly request response
  let response := setting.cors?.elim response (·.mark request response)
  if setting.isLayered then
    let route := ((route? setting.routes request).map Prod.fst).getD "unmatched"
    let metrics := w.catalog.metrics.served request.method route response.status
    ({ w with catalog := { w.catalog with metrics } }, .response (response.withId id))
  else (w, .response response)

/-- Record the evaluation of rules over a catalog that is not empty. -/
def recordEvaluation (setting : Setting) (w : World) (products : List Product)
    (rules : List String) : World :=
  if products.isEmpty then w
  else
    let report := Segment.report setting.isTraced products rules
    let metrics := w.catalog.metrics.evaluated rules.length report.matched
    { w with catalog := { w.catalog with metrics }, log := w.log ++ report.trace }

/-- Answer a client whose visit to the catalog has ended. -/
def answer (setting : Setting) (w : World) (purpose : Purpose) (outcome : Outcome) :
    World × Reply :=
  match purpose with
  | .fetch | .refresh => (w, .outcome outcome)
  | .serve ⟨request, id, order⟩ =>
    let w := match order, outcome with
      | .evaluate rules, .ok products => w.recordEvaluation setting products rules
      | _, _ => w
    w.send setting request id (order.response setting.isTraced outcome)

/-- The client after a part of its visit. -/
def settle (setting : Setting) (w : World) (purpose : Purpose) (result : State × (Visit ⊕ Outcome)) :
    World × Client :=
  let w := { w with catalog := result.1 }
  match result.2 with
  | .inl visit => (w, .visiting purpose visit)
  | .inr outcome =>
    let (w, reply) := w.answer setting purpose outcome
    (w, .answered reply)

/-- Consult the catalog for a purpose. -/
def consult (setting : Setting) (w : World) (purpose : Purpose) : World × Client :=
  let isRefresh := match purpose with
    | .refresh | .serve ⟨_, _, .refresh⟩ => true
    | _ => false
  let visit := if !setting.isCached then w.catalog.ask setting.terms
    else if isRefresh then w.catalog.refresh setting.terms
    else w.catalog.read setting.terms
  w.settle setting purpose visit

/-- Take in a request: answer it at once, or consult the catalog for it. -/
def receive (setting : Setting) (w : World) (request : Web.Request) : World × Client :=
  let id := request.id (setting.freshId w.ids)
  let w := { w with ids := w.ids + 1 }
  match setting.plan id request with
  | .inl response =>
    let (w, reply) := w.send setting request id response
    (w, .answered reply)
  | .inr order => w.consult setting (.serve ⟨request, id, order⟩)

/-- What can come to a service from outside. -/
inductive Arrival where
  | fetch
  | refresh
  | request (request : Web.Request)
  deriving DecidableEq

/-- Let somebody in. -/
def enter (setting : Setting) (w : World) (arrival : Arrival) : World :=
  let (w, client) := match arrival with
    | .fetch => w.consult setting .fetch
    | .refresh => w.consult setting .refresh
    | .request request => w.receive setting request
  { w with clients := w.clients ++ [client] }

/-- Go on with a client, unless it has to wait. -/
def stepClient? (setting : Setting) (w : World) (index : Nat) : Option World :=
  match w.clients[index]? with
  | some (.visiting purpose visit) =>
    (visit.step setting.terms w.catalog).map fun result =>
      let (w, client) := w.settle setting purpose result
      { w with clients := w.clients.set index client }
  | _ => none

/-- Which of its two channels of events a worker between refreshes attends to. -/
inductive Attention where
  | channel
  | ticks
  deriving DecidableEq, Repr

/-- Go on with a worker, unless it has to wait. -/
def stepWorker? (setting : Setting) (w : World) (index : Nat) (attention : Attention) :
    Option World :=
  let put (s : State) (worker : Worker) : World :=
    { w with catalog := s, workers := w.workers.set index worker }
  w.workers[index]?.bind fun worker =>
    match worker.activity, attention with
    | .busy .., _ => (worker.proceed setting.terms w.catalog).map fun (s, worker) => put s worker
    | _, .channel => worker.observe.map (put w.catalog)
    | _, .ticks => (worker.tick setting.terms w.catalog).map fun (s, worker) => put s worker

/-- Let time pass. -/
def wait (w : World) (duration : Nat) : World :=
  { w with catalog := { w.catalog with now := w.catalog.now + duration } }

/-- One step of a running service. -/
inductive Step (setting : Setting) : World → World → Prop where
  | enter (w : World) (arrival : Arrival) : Step setting w (w.enter setting arrival)
  | client {w next : World} (index : Nat) (h : w.stepClient? setting index = some next) :
    Step setting w next
  | worker {w next : World} (index : Nat) (attention : Attention)
    (h : w.stepWorker? setting index attention = some next) : Step setting w next
  | start (w : World) (interval : Nat) :
    Step setting w { w with workers := w.workers ++ [.start w.catalog.now interval] }
  | signal (w : World) (index : Nat) (value : Bool) :
    Step setting w { w with workers := w.workers.modify index (.send value) }
  | close (w : World) (index : Nat) :
    Step setting w { w with workers := w.workers.modify index .close }
  | wait (w : World) (duration : Nat) : Step setting w (w.wait duration)

end World

end ProductSegments.Service
