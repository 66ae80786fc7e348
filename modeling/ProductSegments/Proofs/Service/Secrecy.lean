import ProductSegments.Proofs.Catalog.Redaction
import ProductSegments.Proofs.Service.Run

/-!
# What clients learn of failures

A client whose request cannot be answered learns the code of the failure and nothing else about it.
A service whose supplier gives redacted answers therefore goes through the same states as the
service itself, but for the failures that readers within the program are given.  So two suppliers
that differ in the details of their failures only cannot be told apart: not by any response, nor by
the times of the calls, nor by what is kept.

## Main definitions

* `Service.World.redacted` — a state of the service with all failures redacted.
* `Service.Setting.supplied` — a setting with another supplier.
* `Service.View`, `Service.World.view` — what can be seen of a state: the responses, the calls and
  the snapshot.
* `Service.sights` — what can be seen during a run.

## Main results

* `Service.World.act?_redacted` — an action does the same to redacted states.
* `Service.World.play?_redacted` — so does a list of actions.
* `Service.World.failures_keep_details` — the details of failures cannot be seen.
-/

namespace ProductSegments.Service

open Catalog (State Visit Worker Outcome Supplier)

/-! ### Redacted states -/

/-- The setting with redacted answers of the supplier. -/
def Setting.redacted (setting : Setting) : Setting :=
  { setting with terms := setting.terms.redacted }

/-- What somebody got, without the details of a failure.  A response holds none. -/
def Reply.redacted : Reply → Reply
  | .outcome given => .outcome given.redacted
  | .response sent => .response sent

/-- The client with what it got redacted. -/
def Client.redacted : Client → Client
  | .visiting purpose visit => .visiting purpose visit
  | .answered reply => .answered reply.redacted

/-- The state with all failures redacted. -/
def World.redacted (w : World) : World := { w with clients := w.clients.map Client.redacted }

/-- A state and somebody in it, both redacted. -/
def redactedPair {α : Type} (redact : α → α) (pair : World × α) : World × α :=
  (pair.1.redacted, redact pair.2)

/-! ### Answers -/

/-- Of a failure the response to an order shows its code only. -/
theorem Order.response_redacted (order : Order) (traced : Bool) (outcome : Outcome) :
    order.response traced outcome.redacted = order.response traced outcome := by
  cases outcome with
  | ok products => rfl
  | error failure =>
    have evaluation : (Problem.evaluation failure.redacted).response =
        (Problem.evaluation failure).response := by
      simp only [Problem.response, Problem.status, Problem.code, Problem.message, Problem.details?,
        Catalog.Failure.code_redacted]
    have catalog : (Problem.catalog failure.redacted).response =
        (Problem.catalog failure).response := by
      simp only [Problem.response, Problem.status, Problem.code, Problem.message, Problem.details?,
        Catalog.Failure.code_redacted]
    cases order with
    | evaluate rules => exact evaluation
    | list => exact catalog
    | refresh => exact catalog

namespace World

variable (setting : Setting) (w : World)

theorem send_redacted (request : Web.Request) (id : List Char) (response : Web.Response) :
    w.redacted.send setting.redacted request id response =
      redactedPair Reply.redacted (w.send setting request id response) := by
  have layered : setting.redacted.isLayered = setting.isLayered := rfl
  unfold send
  rw [layered]
  cases setting.isLayered with
  | true => rfl
  | false => rfl

theorem recordEvaluation_redacted (products : List Product) (rules : List String) :
    w.redacted.recordEvaluation setting.redacted products rules =
      (w.recordEvaluation setting products rules).redacted := by
  unfold recordEvaluation
  cases products.isEmpty with
  | true => rfl
  | false => rfl

theorem answer_redacted (purpose : Purpose) (outcome : Outcome) :
    w.redacted.answer setting.redacted purpose outcome.redacted =
      redactedPair Reply.redacted (w.answer setting purpose outcome) := by
  cases purpose with
  | fetch => rfl
  | refresh => rfl
  | serve exchange =>
    obtain ⟨request, id, order⟩ := exchange
    have traced : setting.redacted.isTraced = setting.isTraced := rfl
    simp only [answer, Order.response_redacted, traced]
    rw [← send_redacted]
    -- an evaluation is recorded if there are products, which are never redacted
    cases order with
    | list => rfl
    | refresh => rfl
    | evaluate rules =>
      cases outcome with
      | error failure => rfl
      | ok products => simp only [Outcome.redacted, recordEvaluation_redacted]

theorem settle_redacted (purpose : Purpose) (result : State × (Visit ⊕ Outcome)) :
    w.redacted.settle setting.redacted purpose (Catalog.redactedResult result) =
      redactedPair Client.redacted (w.settle setting purpose result) := by
  obtain ⟨s, visit | outcome⟩ := result
  · rfl
  · have answered := answer_redacted setting { w with catalog := s } purpose outcome
    have state : ({ w.redacted with catalog := s } : World) =
        ({ w with catalog := s } : World).redacted := rfl
    simp only [settle, Catalog.redactedResult, Sum.map_inr, state, answered]
    rfl

/-! ### Actions -/

theorem consult_redacted (purpose : Purpose) :
    w.redacted.consult setting.redacted purpose =
      redactedPair Client.redacted (w.consult setting purpose) := by
  have same : setting.redacted.consult purpose w.redacted.catalog =
      setting.consult purpose w.catalog := rfl
  -- a visit that begins is not given a failure, so there is nothing to redact
  have given : Catalog.redactedResult (setting.consult purpose w.catalog) =
      setting.consult purpose w.catalog := by
    unfold Setting.consult
    cases setting.isCached with
    | false => rfl
    | true =>
      cases purpose.isRefresh with
      | true => rfl
      | false => exact State.redactedResult_read w.catalog setting.terms
  rw [consult_eq, consult_eq, same, ← settle_redacted, given]

theorem receive_redacted (r : Web.Request) :
    w.redacted.receive setting.redacted r =
      redactedPair Client.redacted (w.receive setting r) := by
  have plan : setting.redacted.plan (r.id (setting.redacted.freshId w.redacted.ids)) r =
      setting.plan (r.id (setting.freshId w.ids)) r := rfl
  have state : ({ w.redacted with ids := w.redacted.ids + 1 } : World) =
      ({ w with ids := w.ids + 1 } : World).redacted := rfl
  unfold receive
  dsimp only
  rw [plan, state]
  cases setting.plan (r.id (setting.freshId w.ids)) r with
  | inl response =>
    have sent := send_redacted setting { w with ids := w.ids + 1 } r
      (r.id (setting.freshId w.ids)) response
    exact congrArg (fun pair => (pair.1, Client.answered pair.2)) sent
  | inr order => exact consult_redacted setting _ _

theorem enter_redacted (arrival : Arrival) :
    w.redacted.enter setting.redacted arrival = (w.enter setting arrival).redacted := by
  have join : ∀ pair pair' : World × Client, pair' = redactedPair Client.redacted pair →
      ({ pair'.1 with clients := pair'.1.clients ++ [pair'.2] } : World) =
        ({ pair.1 with clients := pair.1.clients ++ [pair.2] } : World).redacted := by
    rintro pair _ rfl
    simp only [redactedPair, redacted, List.map_append, List.map_cons, List.map_nil]
  cases arrival with
  | fetch => exact join _ _ (consult_redacted setting w .fetch)
  | refresh => exact join _ _ (consult_redacted setting w .refresh)
  | request r => exact join _ _ (receive_redacted setting w r)

theorem stepClient?_redacted (index : Nat) :
    w.redacted.stepClient? setting.redacted index =
      (w.stepClient? setting index).map redacted := by
  have client : w.redacted.clients[index]? = w.clients[index]?.map Client.redacted :=
    List.getElem?_map
  have terms : setting.redacted.terms = setting.terms.redacted := rfl
  have catalog : w.redacted.catalog = w.catalog := rfl
  simp only [stepClient?, client, terms, catalog]
  match w.clients[index]? with
  | none => rfl
  | some (.answered reply) => rfl
  | some (.visiting purpose visit) =>
    simp only [Option.map_some, Client.redacted, Visit.step_redacted, Option.map_map]
    congr 1
    funext result
    simp only [Function.comp_apply, settle_redacted, redactedPair]
    simp only [redacted, List.map_set]

theorem stepWorker?_redacted (index : Nat) (attention : Attention) :
    w.redacted.stepWorker? setting.redacted index attention =
      (w.stepWorker? setting index attention).map redacted := by
  have terms : setting.redacted.terms = setting.terms.redacted := rfl
  have workers : w.redacted.workers = w.workers := rfl
  have catalog : w.redacted.catalog = w.catalog := rfl
  simp only [stepWorker?, workers, terms, catalog, Worker.proceed_redacted, Worker.tick_redacted]
  cases w.workers[index]? with
  | none => rfl
  | some worker =>
    simp only [Option.bind_some]
    split <;> simp only [Option.map_map] <;> rfl

/-- **An action does the same to redacted states**, and somebody has to wait in the same places. -/
theorem act?_redacted (action : Action) :
    w.redacted.act? setting.redacted action = (w.act? setting action).map redacted := by
  cases action with
  | enter arrival => exact congrArg some (enter_redacted setting w arrival)
  | client index => exact stepClient?_redacted setting w index
  | worker index attention => exact stepWorker?_redacted setting w index attention
  | start interval => rfl
  | signal index value => rfl
  | close index => rfl
  | wait duration => rfl

end World

/-! ### Runs -/

/-- The move between redacted states. -/
def Move.redacted (m : Move) : Move := ⟨m.before.redacted, m.action, m.after.redacted⟩

theorem World.play?_redacted (setting : Setting) (w : World) (actions : List Action) :
    w.redacted.play? setting.redacted actions =
      (w.play? setting actions).map fun (moves, next) =>
        (moves.map Move.redacted, next.redacted) := by
  induction actions generalizing w with
  | nil => rfl
  | cons action actions ih =>
    simp only [play?, act?_redacted]
    cases w.act? setting action with
    | none => rfl
    | some v =>
      simp only [Option.map_some, ih, Option.map_map]
      rfl

/-! ### What can be seen -/

/-- What can be seen of a service. -/
structure View where
  /-- The response to everybody who has come, if it has been sent. -/
  responses : List (Option Web.Response)
  /-- When the calls to the supplier began, the latest first. -/
  calls : List Nat
  snapshot : Option (List Product)

/-- The response that a client has been sent, if it has been. -/
def Client.response? : Client → Option Web.Response
  | .answered (.response response) => some response
  | _ => none

/-- What can be seen of a state. -/
def World.view (w : World) : View :=
  ⟨w.clients.map Client.response?, w.catalog.calls, w.catalog.snapshot⟩

/-- What can be seen during a run, from the first state to the last. -/
def sights (run : List Move × World) : List View :=
  run.1.map (·.before.view) ++ [run.2.view]

theorem World.view_redacted (w : World) : w.redacted.view = w.view := by
  have responses : w.redacted.clients.map Client.response? = w.clients.map Client.response? := by
    simp only [redacted, List.map_map]
    congr 1
    funext c
    match c with
    | .visiting purpose visit => rfl
    | .answered (.outcome outcome) => rfl
    | .answered (.response response) => rfl
  simp only [view, responses]
  rfl

/-- What can be seen during a list of actions can be seen with redacted answers. -/
theorem World.sights_redacted (setting : Setting) (w : World) (actions : List Action) :
    (w.redacted.play? setting.redacted actions).map sights =
      (w.play? setting actions).map sights := by
  rw [play?_redacted, Option.map_map]
  congr 1
  funext run
  simp only [Function.comp_apply, sights, List.map_map, view_redacted]
  congr 2
  funext m
  exact view_redacted m.before

/-- The setting with another supplier. -/
def Setting.supplied (setting : Setting) (supplier : Supplier) : Setting :=
  { setting with terms := { setting.terms with supplier } }

/-- **The details of failures cannot be seen.**  Whatever is done to a service, in whatever order
its clients and workers go on, it can be done just as well if its supplier's failures say something
else, and then all responses, the times of all calls and all that is kept are the same at every
moment. -/
theorem World.failures_keep_details (setting : Setting) {supplier supplier' : Supplier}
    (alike : supplier.Alike supplier') (actions : List Action) :
    (World.initial.play? (setting.supplied supplier) actions).map sights =
      (World.initial.play? (setting.supplied supplier') actions).map sights := by
  have settings : (setting.supplied supplier).redacted = (setting.supplied supplier').redacted := by
    have suppliers := alike.redacted_eq
    simp only [Setting.redacted, Setting.supplied, Catalog.Terms.redacted, suppliers]
  calc (World.initial.play? (setting.supplied supplier) actions).map sights
      = (World.initial.redacted.play? (setting.supplied supplier).redacted actions).map sights :=
        (sights_redacted ..).symm
    _ = (World.initial.redacted.play? (setting.supplied supplier').redacted actions).map sights := by
        rw [settings]
    _ = (World.initial.play? (setting.supplied supplier') actions).map sights :=
        sights_redacted ..

/-- A supplier that is in trouble at first, and gives something unreadable then. -/
def troubled (status : Nat) (reason : String) : Supplier := fun call =>
  if call = 0 then ⟨.error (.status status), 10⟩ else ⟨.error (.undecodable reason), 5⟩

/-- A service that asks a supplier in trouble a second time answers the same, whatever the statuses
and the unreadable documents are. -/
theorem World.failures_keep_details_troubled :
    (troubled 503 "key=1234").Alike (troubled 500 "") ∧
    (World.initial.play?
      ((Setting.cached ⟨troubled 503 "", .standard⟩).supplied (troubled 503 "key=1234"))
      [.enter (.request ⟨"GET", "/products", [], []⟩), .wait 10, .client 0, .wait 500, .client 0,
        .wait 5, .client 0]).any
      (fun run => run.2.view.calls = [510, 0] && run.2.view.responses.any (·.isSome)) = true ∧
    (World.initial.play?
      ((Setting.cached ⟨troubled 503 "", .standard⟩).supplied (troubled 503 "key=1234"))
      [.enter (.request ⟨"GET", "/products", [], []⟩), .wait 10, .client 0, .wait 500, .client 0,
        .wait 5, .client 0]).map sights =
    (World.initial.play?
      ((Setting.cached ⟨troubled 503 "", .standard⟩).supplied (troubled 500 ""))
      [.enter (.request ⟨"GET", "/products", [], []⟩), .wait 10, .client 0, .wait 500, .client 0,
        .wait 5, .client 0]).map sights := by
  have alike : (troubled 503 "key=1234").Alike (troubled 500 "") := by
    intro call
    unfold troubled
    split
    · exact ⟨.error (.status (by decide)), rfl⟩
    · exact ⟨.error (.undecodable _ _), rfl⟩
  exact ⟨alike, by decide +kernel, World.failures_keep_details _ alike _⟩

end ProductSegments.Service
