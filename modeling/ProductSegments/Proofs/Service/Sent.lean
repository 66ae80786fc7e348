import ProductSegments.Proofs.Metrics
import ProductSegments.Proofs.Service.Queue
import ProductSegments.Proofs.Service.Request
import ProductSegments.Proofs.Service.Secrecy

/-!
# What is sent and what is recorded

A request is answered by the move that takes it in, or by the move that ends its visit to the
catalog.  Of either kind of move one can say beforehand which response it drafts, and what goes into
the record: the end of a refresh, a segment that has been worked out, and the response.

## Main definitions

* `Service.Draft` — a response to a request; `Service.Draft.sent` is what goes out.
* `Service.Immediate` — the responses for which the catalog is not consulted.
* `Service.World.draft?` — the response that an action drafts.
* `Service.World.entries` — what an action records.
* `Service.Move.served?` — the request that is answered with a move, and the response.

## Main results

* `Service.Move.served?_of_act?` — what goes out is the response that has been drafted.
* `Service.World.metrics_of_act?` — nothing else is recorded.
* `Service.Run.countP_served?` — every response that a client has went out once.
* `Service.Run.metrics_eq` — a run records what its moves record, in their order.
* `Service.Run.forall_purposes` — clients have the purposes with which they came.
-/

namespace ProductSegments

open Catalog (State Visit Cycle Worker Outcome Ending)

/-! ### Refreshes -/

namespace Catalog

/-- What is recorded of a refresh that ends. -/
def Ending.entry (e : Ending) : Metrics.Entry := .refreshed (e.products?.map List.length)

theorem State.metrics_conclude (s : State) (e : Ending) :
    (s.conclude e.outcome).metrics = s.metrics.enter e.entry := by
  unfold Ending.entry Ending.products?
  cases e.outcome <;> rfl

theorem Cycle.Onward.metrics {terms : Terms} {s s' : State} {cycle next : Cycle}
    (h : Cycle.Onward terms s cycle s' next) : s'.metrics = s.metrics := by
  cases h <;> rfl

/-- A step of a visit records the end of its refresh, if that has come. -/
theorem Visit.Effect.metrics {terms : Terms} {s s' : State} {visit : Visit}
    {result : Visit ⊕ Outcome} (h : Visit.Effect terms s visit s' result) :
    s'.metrics = ((visit.cycle?.bind (·.ending? terms s)).toList.map Ending.entry).foldl
      Metrics.enter s.metrics := by
  cases h with
  | served turn kept => rfl
  | turn turn cold => rfl
  | load onward =>
    rw [Visit.cycle?, Option.bind_some, onward.ending?]
    exact onward.metrics
  | loaded ending =>
    rw [Visit.cycle?, Option.bind_some, ending]
    exact State.metrics_conclude ..
  | refresh onward =>
    rw [Visit.cycle?, Option.bind_some, onward.ending?]
    exact onward.metrics
  | refreshed ending =>
    rw [Visit.cycle?, Option.bind_some, ending]
    exact State.metrics_conclude ..
  | asked due => rfl

/-- A step of a worker records the end of its refresh, if that has come. -/
theorem Worker.Effect.metrics {terms : Terms} {s s' : State} {worker worker' : Worker}
    (h : Worker.Effect terms s worker s' worker') :
    s'.metrics = ((worker.cycle?.bind (·.ending? terms s)).toList.map Ending.entry).foldl
      Metrics.enter s.metrics := by
  cases h with
  | tick idle passed =>
    rw [Worker.cycle?, idle]
    rfl
  | onward busy onward =>
    rw [Worker.cycle?, busy]
    dsimp only
    rw [Option.bind_some, onward.ending?]
    exact onward.metrics
  | ended busy ending =>
    rw [Worker.cycle?, busy]
    dsimp only
    rw [Option.bind_some, ending]
    exact State.metrics_conclude ..
  | observe before after =>
    rw [before]
    rfl

end Catalog

namespace Service

variable {setting : Setting} {w next : World} {action : Action} {moves : List Move}

/-- The beginning of a visit records nothing. -/
theorem Opening.metrics {purpose : Purpose} {s s' : State} {result : Visit ⊕ Outcome}
    (h : Opening setting purpose s s' result) : s'.metrics = s.metrics := by
  cases h <;> rfl

/-! ### Drafts -/

/-- A response to a request with an id. -/
structure Draft where
  request : Web.Request
  id : List Char
  response : Web.Response

namespace Draft

/-- The response that goes out. -/
def sent (setting : Setting) (d : Draft) : Web.Response :=
  let response := headOnly d.request d.response
  let response := setting.cors?.elim response (·.mark d.request response)
  if setting.isLayered then response.withId d.id else response

/-- What stands for the path of the request in the record. -/
def route (setting : Setting) (d : Draft) : String :=
  ((route? setting.routes d.request).map Prod.fst).getD "unmatched"

/-- What is recorded of the response. -/
def entry (setting : Setting) (d : Draft) : Metrics.Entry :=
  .served d.request.method (d.route setting) d.response.status

/-- The same, if responses are counted. -/
def entries (setting : Setting) (d : Draft) : List Metrics.Entry :=
  if setting.isLayered then [d.entry setting] else []

theorem mem_entries {d : Draft} {e : Metrics.Entry} :
    e ∈ d.entries setting ↔ setting.isLayered = true ∧ e = d.entry setting := by
  unfold entries
  cases setting.isLayered <;> simp

/-- What is said about the origin and the id leaves the status as it is. -/
theorem status_marked (setting : Setting) (d : Draft) :
    (setting.cors?.elim (headOnly d.request d.response)
      (·.mark d.request (headOnly d.request d.response))).status = d.response.status := by
  have head : (headOnly d.request d.response).status = d.response.status := by
    unfold headOnly
    split <;> rfl
  cases setting.cors? <;> exact head

@[simp] theorem status_sent (d : Draft) : (d.sent setting).status = d.response.status := by
  unfold sent
  split <;> exact d.status_marked setting

end Draft

/-- Record some entries. -/
def World.record (w : World) (entries : List Metrics.Entry) : World :=
  { w with catalog := { w.catalog with metrics := entries.foldl Metrics.enter w.catalog.metrics } }

/-- A response is recorded and goes out. -/
theorem World.send_draft (w : World) (d : Draft) :
    w.send setting d.request d.id d.response =
      (w.record (d.entries setting), .response (d.sent setting)) := by
  cases layered : setting.isLayered with
  | true =>
    have entries : d.entries setting = [d.entry setting] := by
      rw [Draft.entries, if_pos layered]
    rw [entries, Draft.entry, ← d.status_marked setting]
    simp only [World.send, Draft.sent, layered, if_true]
    rfl
  | false =>
    simp only [World.send, Draft.sent, Draft.entries, layered, Bool.false_eq_true, if_false]
    rfl

/-! ### Responses without the catalog -/

/-- A response for which the catalog is not consulted. -/
inductive Immediate : Web.Response → Prop where
  /-- The path is not known. -/
  | unknown : Immediate (.blank 404)
  /-- The method is not one of its endpoint. -/
  | unwelcome (endpoint : Endpoint) : Immediate (endpoint.turnAway (.blank 405))
  /-- The body holds no rules. -/
  | refused (details : String) : Immediate (Problem.invalidRequest details).response
  /-- The service tells something about itself. -/
  | told (type : String) (body : List Char) : Immediate (.of 200 type body)
  /-- A question about cross-origin requests, for an unknown path. -/
  | preflight : Immediate Web.Cors.preflight
  /-- The same for an endpoint. -/
  | preflightAt (endpoint : Endpoint) : Immediate (endpoint.turnAway Web.Cors.preflight)

theorem immediate_of_plan {wording : Wording} {routes : Routes} {id : List Char} {r : Web.Request}
    {response : Web.Response} (h : plan wording routes id r = .inl response) :
    Immediate response := by
  unfold plan at h
  split at h
  · obtain rfl := Sum.inl.inj h
    exact .unknown
  · next path endpoint found =>
    split at h
    · obtain rfl := Sum.inl.inj h
      exact .unwelcome endpoint
    · cases endpoint with
      | evaluate =>
        dsimp only at h
        split at h
        · cases h
        · next rejection refused =>
          obtain rfl := Sum.inl.inj h
          exact .refused _
      | products => cases h
      | refresh => cases h
      | health =>
        obtain rfl := Sum.inl.inj h
        exact .told _ _
      | identity =>
        obtain rfl := Sum.inl.inj h
        exact .told _ _

/-- What is sent at once is one of a few responses. -/
theorem immediate_of_setting {id : List Char} {r : Web.Request} {response : Web.Response}
    (h : setting.plan id r = .inl response) : Immediate response := by
  unfold Setting.plan guardedPlan at h
  split at h
  · obtain rfl := Sum.inl.inj h
    cases (route? setting.routes r).map Prod.snd with
    | none => exact .preflight
    | some endpoint => exact .preflightAt endpoint
  · exact immediate_of_plan h

/-! ### Ends of visits -/

/-- The response that a purpose asks for, if it asks for one. -/
def Purpose.draft? (setting : Setting) (purpose : Purpose) (outcome : Outcome) : Option Draft :=
  match purpose with
  | .fetch | .refresh => none
  | .serve ⟨request, id, order⟩ => some ⟨request, id, order.response setting.isTraced outcome⟩

/-- The rules and the products of a segment that is worked out, if there are any products. -/
def Purpose.evaluated? (purpose : Purpose) (outcome : Outcome) :
    Option (List String × List Product) :=
  match purpose, outcome with
  | .serve ⟨_, _, .evaluate rules⟩, .ok (p :: ps) => some (rules, p :: ps)
  | _, _ => none

/-- What is recorded of a segment. -/
def Setting.segmentEntry (setting : Setting) (rules : List String) (products : List Product) :
    Metrics.Entry :=
  .evaluated rules.length (Segment.report setting.isTraced products rules).matched

/-- What is recorded when a visit ends: the segment that is worked out, and the response. -/
def Purpose.entries (setting : Setting) (purpose : Purpose) (outcome : Outcome) :
    List Metrics.Entry :=
  (purpose.evaluated? outcome).toList.map (Function.uncurry setting.segmentEntry) ++
    (purpose.draft? setting outcome).elim [] (·.entries setting)

/-- What somebody gets is the response that was drafted, or the outcome itself. -/
theorem Purpose.reply_eq (purpose : Purpose) (outcome : Outcome) :
    purpose.reply setting outcome = (purpose.draft? setting outcome).elim (.outcome outcome)
      (.response <| ·.sent setting) := by
  match purpose with
  | .fetch => rfl
  | .refresh => rfl
  | .serve ⟨request, id, order⟩ =>
    let d : Draft := ⟨request, id, order.response setting.isTraced outcome⟩
    exact congrArg Prod.snd (World.send_draft _ d)

namespace World

theorem metrics_answer (w : World) (purpose : Purpose) (outcome : Outcome) :
    (w.answer setting purpose outcome).1.catalog.metrics =
      (purpose.entries setting outcome).foldl Metrics.enter w.catalog.metrics := by
  match purpose with
  | .fetch => rfl
  | .refresh => rfl
  | .serve ⟨request, id, order⟩ =>
    -- the segment is recorded first, if one is worked out, and then the response
    obtain ⟨v, worked, sent⟩ : ∃ v : World,
        v.catalog.metrics = ((Purpose.evaluated? (.serve ⟨request, id, order⟩) outcome).toList.map
          (Function.uncurry setting.segmentEntry)).foldl Metrics.enter w.catalog.metrics ∧
        w.answer setting (.serve ⟨request, id, order⟩) outcome =
          v.send setting request id (order.response setting.isTraced outcome) := by
      match order, outcome with
      | .evaluate rules, .ok (p :: ps) =>
        exact ⟨w.recordEvaluation setting (p :: ps) rules, rfl, rfl⟩
      | .evaluate rules, .ok [] => exact ⟨w.recordEvaluation setting [] rules, rfl, rfl⟩
      | .evaluate rules, .error failure => exact ⟨w, rfl, rfl⟩
      | .list, outcome => exact ⟨w, rfl, rfl⟩
      | .refresh, outcome => exact ⟨w, rfl, rfl⟩
    let d : Draft := ⟨request, id, order.response setting.isTraced outcome⟩
    rw [Purpose.entries, List.foldl_append, ← worked, sent]
    exact congrArg (·.1.catalog.metrics) (send_draft v d)

/-- The end of a visit is recorded, if that has come. -/
theorem metrics_settle (w : World) (purpose : Purpose) (s : State) (result : Visit ⊕ Outcome) :
    (w.settle setting purpose (s, result)).1.catalog.metrics =
      (result.getRight?.elim [] (purpose.entries setting)).foldl Metrics.enter s.metrics := by
  cases result with
  | inl visit => rfl
  | inr outcome => exact metrics_answer { w with catalog := s } purpose outcome

/-! ### What an action drafts and records -/

/-- The response that an action drafts to a request that it takes in, if it answers that at once. -/
def dispatch? (setting : Setting) (w : World) : Action → Option Draft
  | .enter (.request r) =>
    let id := r.id (setting.freshId w.ids)
    (setting.plan id r).getLeft?.map (Draft.mk r id)
  | _ => none

/-- The response that an action drafts: to a request that it takes in, or at the end of a visit. -/
def draft? (setting : Setting) (w : World) (action : Action) : Option Draft :=
  w.dispatch? setting action <|>
    (w.return? setting action).bind fun r => r.purpose.draft? setting r.outcome

/-- What an action records. -/
def entries (setting : Setting) (w : World) (action : Action) : List Metrics.Entry :=
  (w.ending? setting action).toList.map Ending.entry ++
    ((w.return? setting action).bind fun r => r.purpose.evaluated? r.outcome).toList.map
      (Function.uncurry setting.segmentEntry) ++
    (w.draft? setting action).elim [] (·.entries setting)

/-- Each entry is about the end of a refresh, about a segment or about a response. -/
theorem mem_entries {e : Metrics.Entry} : e ∈ w.entries setting action ↔
    (∃ ending, w.ending? setting action = some ending ∧ e = ending.entry) ∨
    (∃ segment, ((w.return? setting action).bind fun r => r.purpose.evaluated? r.outcome) =
      some segment ∧ e = setting.segmentEntry segment.1 segment.2) ∨
    ∃ d, w.draft? setting action = some d ∧ setting.isLayered = true ∧ e = d.entry setting := by
  have listed : ∀ {α : Type} (f : α → Metrics.Entry) (a? : Option α),
      e ∈ a?.toList.map f ↔ ∃ a, a? = some a ∧ e = f a := by
    intro α f a?
    cases a? <;> simp
  have response : e ∈ (w.draft? setting action).elim [] (·.entries setting) ↔
      ∃ d, w.draft? setting action = some d ∧ setting.isLayered = true ∧ e = d.entry setting := by
    cases w.draft? setting action <;> simp [Draft.mem_entries]
  rw [entries, List.mem_append, List.mem_append, listed, listed, response, or_assoc]
  rfl

section Visits

variable {index : Nat} {purpose : Purpose} {result : Visit ⊕ Outcome}
  (visits : w.dispatch? setting action = none)
  (returns : w.return? setting action =
    result.getRight?.map fun outcome => ⟨index, purpose, outcome⟩)

include visits returns

/-- An action that takes part in a visit drafts the response to what the visit comes to, if it
ends. -/
theorem draft?_of_visit :
    w.draft? setting action = result.getRight?.bind (purpose.draft? setting) := by
  rw [draft?, visits, returns]
  cases result <;> rfl

/-- And it records what the visit comes to. -/
theorem entries_of_visit :
    w.entries setting action = (w.ending? setting action).toList.map Ending.entry ++
      result.getRight?.elim [] (purpose.entries setting) := by
  rw [entries, draft?_of_visit visits returns, returns, List.append_assoc]
  cases result <;> rfl

end Visits

/-- A request that is answered at once has its response drafted. -/
theorem draft?_of_response {r : Web.Request} {response : Web.Response}
    (planned : setting.plan (r.id (setting.freshId w.ids)) r = .inl response) :
    w.draft? setting (.enter (.request r)) =
      some ⟨r, r.id (setting.freshId w.ids), response⟩ := by
  simp only [draft?, dispatch?, planned]
  rfl

/-- Any other one has not. -/
theorem dispatch?_of_order {r : Web.Request} {order : Order}
    (planned : setting.plan (r.id (setting.freshId w.ids)) r = .inr order) :
    w.dispatch? setting (.enter (.request r)) = none := by
  simp only [dispatch?, planned]
  rfl

/-- A response is drafted as it was planned for a request that comes in, or for an order with the
outcome of its visit. -/
theorem draft?_cases {d : Draft} (h : w.draft? setting action = some d) :
    (action = .enter (.request d.request) ∧ setting.plan d.id d.request = .inl d.response) ∨
    ∃ client order outcome,
      w.return? setting action = some ⟨client, .serve ⟨d.request, d.id, order⟩, outcome⟩ ∧
      d.response = order.response setting.isTraced outcome := by
  unfold draft? at h
  cases atOnce : w.dispatch? setting action with
  | some d' =>
    rw [atOnce] at h
    obtain rfl : d' = d := Option.some.inj h
    left
    match action with
    | .enter (.request r) =>
      obtain ⟨response, planned, rfl⟩ := Option.map_eq_some_iff.mp atOnce
      exact ⟨rfl, Sum.getLeft?_eq_some_iff.mp planned⟩
  | none =>
    rw [atOnce] at h
    right
    obtain ⟨⟨client, purpose, outcome⟩, returns, drafts⟩ := Option.bind_eq_some_iff.mp h
    match purpose with
    | .serve ⟨request, id, order⟩ =>
      obtain rfl := Option.some.inj drafts
      exact ⟨client, order, outcome, returns, rfl⟩

theorem metrics_consult {arrival : Arrival} {purpose : Purpose}
    (visits : w.dispatch? setting (.enter arrival) = none)
    (intent : arrival.purpose? setting w = some purpose) (v : World)
    (same : v.catalog = w.catalog) :
    (v.consult setting purpose).1.catalog.metrics =
      (w.entries setting (.enter arrival)).foldl Metrics.enter w.catalog.metrics := by
  have opening := opening_consult setting purpose w.catalog
  rw [entries_of_visit visits (return?_enter intent rfl), consult_eq, same, metrics_settle,
    opening.metrics]
  rfl

theorem metrics_enter (arrival : Arrival) : (w.enter setting arrival).catalog.metrics =
    (w.entries setting (.enter arrival)).foldl Metrics.enter w.catalog.metrics := by
  match arrival with
  | .fetch =>
    have intent : Arrival.purpose? setting w .fetch = some .fetch := rfl
    exact metrics_consult rfl intent w rfl
  | .refresh =>
    have intent : Arrival.purpose? setting w .refresh = some .refresh := rfl
    exact metrics_consult rfl intent w rfl
  | .request r =>
    cases planned : setting.plan (r.id (setting.freshId w.ids)) r with
    | inl response =>
      have returns : w.return? setting (.enter (.request r)) = none := by
        simp only [return?, Arrival.purpose?, planned]
      rw [entries, draft?_of_response planned, returns]
      simp only [enter, receive, planned]
      exact congrArg (·.1.catalog.metrics)
        (send_draft { w with ids := w.ids + 1 } ⟨r, r.id (setting.freshId w.ids), response⟩)
    | inr order =>
      have consulted := metrics_consult (dispatch?_of_order planned) (purpose?_of_order planned)
        { w with ids := w.ids + 1 } rfl
      rw [← consulted]
      simp only [enter, receive, planned]

theorem metrics_stepClient? {index : Nat} (h : w.stepClient? setting index = some next) :
    next.catalog.metrics =
      (w.entries setting (.client index)).foldl Metrics.enter w.catalog.metrics := by
  unfold stepClient? at h
  split at h
  · next purpose visit client =>
    obtain ⟨⟨s, result⟩, step, rfl⟩ := Option.map_eq_some_iff.mp h
    rw [entries_of_visit rfl (return?_client client step), ending?_client client, List.foldl_append,
      ← (Catalog.Visit.effect_of_step step).metrics]
    exact metrics_settle w purpose s result
  · cases h

theorem metrics_stepWorker? {index : Nat} {attention : Attention}
    (h : w.stepWorker? setting index attention = some next) :
    next.catalog.metrics =
      (w.entries setting (.worker index attention)).foldl Metrics.enter w.catalog.metrics := by
  have effect := effect_stepWorker? h
  cases effect with
  | work worker effect =>
    have entries : w.entries setting (.worker index attention) =
        (w.ending? setting (.worker index attention)).toList.map Ending.entry := by
      simp [entries, draft?, dispatch?, return?]
    rw [entries, ending?_worker worker]
    exact effect.metrics

/-- **Nothing else is recorded** than the end of a refresh, a segment that is worked out, and the
response to a request. -/
theorem metrics_of_act? (act : w.act? setting action = some next) :
    next.catalog.metrics = (w.entries setting action).foldl Metrics.enter w.catalog.metrics := by
  cases action with
  | enter arrival =>
    obtain rfl := Option.some.inj act
    exact metrics_enter arrival
  | client index => exact metrics_stepClient? act
  | worker index attention => exact metrics_stepWorker? act
  | start interval => obtain rfl := Option.some.inj act; rfl
  | signal index value => obtain rfl := Option.some.inj act; rfl
  | close index => obtain rfl := Option.some.inj act; rfl
  | wait duration => obtain rfl := Option.some.inj act; rfl

end World

/-! ### What goes out -/

/-- Who sends a request that is answered at once is a client with that answer. -/
theorem World.clients_enter_of_response {r : Web.Request} {response : Web.Response}
    (planned : setting.plan (r.id (setting.freshId w.ids)) r = .inl response) :
    (w.enter setting (.request r)).clients = w.clients ++ [.answered (.response
      (Draft.sent setting ⟨r, r.id (setting.freshId w.ids), response⟩))] := by
  let d : Draft := ⟨r, r.id (setting.freshId w.ids), response⟩
  have sent : World.send setting { w with ids := w.ids + 1 } r (r.id (setting.freshId w.ids))
      response = (({ w with ids := w.ids + 1 } : World).record (d.entries setting),
        .response (d.sent setting)) := World.send_draft _ d
  simp only [World.enter, World.receive, planned, sent]
  rfl

/-- The request that is answered with a move, and the response that goes out. -/
def Move.served? (m : Move) : Option (Web.Request × Web.Response) :=
  match m.action with
  | .enter (.request r) => (m.after.clients.getLast?.bind Client.response?).map (r, ·)
  | .client index =>
    match m.before.clients[index]? with
    | some (.visiting (.serve exchange) _) =>
      (m.after.clients[index]?.bind Client.response?).map (exchange.request, ·)
    | _ => none
  | _ => none

theorem Client.response?_after (purpose : Purpose) (result : Visit ⊕ Outcome) :
    (Client.after setting purpose result).response? =
      (result.getRight?.bind (purpose.draft? setting)).map (·.sent setting) := by
  cases result with
  | inl visit => rfl
  | inr outcome =>
    rw [Client.after, Purpose.reply_eq, Sum.getRight?_inr, Option.bind_some]
    cases purpose.draft? setting outcome <;> rfl

namespace Move

/-- Whoever asks for the catalog itself is sent no response. -/
theorem served?_of_visit {arrival : World.Arrival} {purpose : Purpose}
    (other : served? ⟨w, .enter arrival, next⟩ = none)
    (visits : w.dispatch? setting (.enter arrival) = none)
    (intent : arrival.purpose? setting w = some purpose)
    (asks : purpose.draft? setting = fun _ => none) :
    served? ⟨w, .enter arrival, next⟩ =
      (w.draft? setting (.enter arrival)).map fun d => (d.request, d.sent setting) := by
  rw [World.draft?_of_visit visits (World.return?_enter intent rfl), asks, other,
    Option.bind_fun_none]
  rfl

theorem served?_request (r : Web.Request) :
    served? ⟨w, .enter (.request r), w.enter setting (.request r)⟩ =
      (w.draft? setting (.enter (.request r))).map fun d => (d.request, d.sent setting) := by
  cases planned : setting.plan (r.id (setting.freshId w.ids)) r with
  | inl response =>
    rw [World.draft?_of_response planned, served?]
    simp only [World.clients_enter_of_response planned, List.getLast?_concat]
    rfl
  | inr order =>
    obtain ⟨s, result, -, clients, -, returns⟩ :=
      World.enter_of_purpose (World.purpose?_of_order planned)
    rw [World.draft?_of_visit (World.dispatch?_of_order planned) returns, served?]
    simp only [clients, List.getLast?_concat, Option.bind_some, Client.response?_after]
    cases result <;> rfl

/-- **What goes out is the response that has been drafted**, to the request it was drafted for. -/
theorem served?_of_act? (act : w.act? setting action = some next) :
    served? ⟨w, action, next⟩ =
      (w.draft? setting action).map fun d => (d.request, d.sent setting) := by
  cases action with
  | enter arrival =>
    obtain rfl := Option.some.inj act
    match arrival with
    | .fetch =>
      have intent : World.Arrival.purpose? setting w .fetch = some .fetch := rfl
      exact served?_of_visit rfl rfl intent rfl
    | .refresh =>
      have intent : World.Arrival.purpose? setting w .refresh = some .refresh := rfl
      exact served?_of_visit rfl rfl intent rfl
    | .request r => exact served?_request r
  | client index =>
    have effect := World.effect_stepClient? act
    cases effect with
    | @visit index purpose visit s result client effect step metrics log =>
      have there : index < w.clients.length := (List.getElem?_eq_some_iff.mp client).1
      rw [World.draft?_of_visit rfl (World.return?_client client step), served?]
      simp only [client, List.getElem?_set_self there, Option.bind_some, Client.response?_after]
      match purpose, result with
      | .fetch, .inl _ | .refresh, .inl _ | .serve _, .inl _ => rfl
      | .fetch, .inr _ | .refresh, .inr _ | .serve _, .inr _ => rfl
  | worker index attention => rfl
  | start interval => rfl
  | signal index value => rfl
  | close index => rfl
  | wait duration => rfl

end Move

/-- A client has a response only for a request. -/
theorem Client.response?_after_of_draft? {purpose : Purpose}
    (asks : purpose.draft? setting = fun _ => none) (result : Visit ⊕ Outcome) : (Client.after setting purpose result).response? = none := by
  rw [response?_after, asks, Option.bind_fun_none]
  rfl

/-- With a move one more client has been sent its response, or none. -/
theorem World.countP_response? (p : Web.Response → Bool)
    (act : w.act? setting action = some next) : next.clients.countP (·.response?.any p) =
      w.clients.countP (·.response?.any p) +
        if (Move.served? ⟨w, action, next⟩).any (p ·.2) then 1 else 0 := by
  have came : ∀ c : Client, (w.clients ++ [c]).countP (·.response?.any p) =
      w.clients.countP (·.response?.any p) + if c.response?.any p then 1 else 0 := by
    intro c
    rw [List.countP_append, List.countP_singleton]
  have asked : ∀ (r : Web.Request) (response? : Option Web.Response),
      (response?.map (r, ·)).any (p ·.2) = response?.any p := by
    intro r response?
    cases response? <;> rfl
  have effect := World.effect_of_act? act
  cases effect with
  | @consult arrival purpose s result intent opening begun metrics ids log =>
    rw [came]
    match arrival with
    | .fetch =>
      obtain rfl := Option.some.inj intent
      rw [Client.response?_after_of_draft? rfl]
      rfl
    | .refresh =>
      obtain rfl := Option.some.inj intent
      rw [Client.response?_after_of_draft? rfl]
      rfl
    | .request r => simp only [Move.served?, List.getLast?_concat, Option.bind_some, asked]
  | @dispatch arrival intent reply metrics ids =>
    rw [came]
    match arrival with
    | .fetch => cases intent
    | .refresh => cases intent
    | .request r => simp only [Move.served?, List.getLast?_concat, Option.bind_some, asked]
  | @visit index purpose visit s result client effect step metrics log =>
    have there : index < w.clients.length := (List.getElem?_eq_some_iff.mp client).1
    obtain ⟨front, back, around, -, set⟩ := exists_around_of_getElem? client
    have before : w.clients.countP (·.response?.any p) =
        front.countP (·.response?.any p) + back.countP (·.response?.any p) := by
      rw [around, List.countP_append, List.countP_cons_of_neg (by exact Bool.false_ne_true)]
    have after : (w.clients.set index (.after setting purpose result)).countP (·.response?.any p) =
        w.clients.countP (·.response?.any p) +
          if (Client.after setting purpose result).response?.any p then 1 else 0 := by
      rw [before, set, List.countP_append, List.countP_cons, Nat.add_assoc]
    rw [after]
    cases purpose with
    | fetch =>
      rw [Client.response?_after_of_draft? rfl]
      simp only [Move.served?, client]
      rfl
    | refresh =>
      rw [Client.response?_after_of_draft? rfl]
      simp only [Move.served?, client]
      rfl
    | serve exchange =>
      simp only [Move.served?, client, List.getElem?_set_self there, Option.bind_some, asked]
  | work worker? effect => rfl
  | start interval => rfl
  | signal index value => rfl
  | close index => rfl
  | wait duration => rfl

/-! ### Runs -/

/-- What the moves of a run record. -/
def recorded (setting : Setting) (moves : List Move) : List Metrics.Entry :=
  moves.flatMap fun m => m.before.entries setting m.action

/-- **A run records what its moves record**, in their order. -/
theorem Run.metrics_eq (h : Run setting w moves next) :
    next.catalog.metrics = (recorded setting moves).foldl Metrics.enter w.catalog.metrics := by
  induction h with
  | refl => rfl
  | snoc run act ih =>
    rw [World.metrics_of_act? act, ih, recorded, recorded, List.flatMap_append, List.foldl_append,
      List.flatMap_singleton]

/-- **Every response that a client has went out once**, with one of the moves. -/
theorem Run.countP_served? (h : Run setting .initial moves w) (p : Web.Response → Bool) :
    (moves.countP fun m => m.served?.any (p ·.2)) = w.clients.countP (·.response?.any p) := by
  generalize begun : World.initial = start at h
  induction h with
  | refl =>
    rw [← begun]
    rfl
  | snoc run act ih =>
    rw [List.countP_append, List.countP_singleton, ih, World.countP_response? p act]

/-- **Clients have the purposes with which they came.**  What holds of all of these holds of those
who wait. -/
theorem Run.forall_purposes {Q : Purpose → Prop} (h : Run setting .initial moves w)
    (came : ∀ m ∈ moves, ∀ arrival purpose, m.action = .enter arrival →
      arrival.purpose? setting m.before = some purpose → Q purpose) :
    ∀ purpose visit, .visiting purpose visit ∈ w.clients → Q purpose := by
  generalize begun : World.initial = start at h
  induction h with
  | refl =>
    intro purpose visit waits
    rw [← begun] at waits
    cases waits
  | @snoc moves v next action run act ih =>
    have earlier := ih fun m hm => came m (List.mem_append_left _ hm)
    have last := came ⟨v, action, next⟩ (List.mem_append_right _ List.mem_cons_self)
    -- a client that goes on keeps its purpose
    have after : ∀ {purpose purpose' : Purpose} {visit : Visit} {result : Visit ⊕ Outcome},
        Client.visiting purpose visit = .after setting purpose' result → purpose = purpose' := by
      intro purpose purpose' visit result eq
      cases result with
      | inl visit' => exact (Client.visiting.inj eq).1
      | inr outcome => cases eq
    intro purpose visit waits
    cases World.effect_of_act? act with
    | consult intent opening begun metrics ids log =>
      rcases List.mem_append.mp waits with there | new
      · exact earlier purpose visit there
      · rw [after (List.mem_singleton.mp new)]
        exact last _ _ rfl intent
    | dispatch intent reply metrics ids =>
      rcases List.mem_append.mp waits with there | new
      · exact earlier purpose visit there
      · cases List.mem_singleton.mp new
    | visit client effect step metrics log =>
      rcases List.mem_or_eq_of_mem_set waits with there | onward
      · exact earlier purpose visit there
      · rw [after onward]
        exact earlier _ _ (List.mem_of_getElem? client)
    | work worker? effect => exact earlier purpose visit waits
    | start interval => exact earlier purpose visit waits
    | signal index value => exact earlier purpose visit waits
    | close index => exact earlier purpose visit waits
    | wait duration => exact earlier purpose visit waits

/-- What holds of all purposes with which somebody came holds of those of the visits that end. -/
theorem Run.forall_returns {Q : Purpose → Prop} (h : Run setting .initial moves w)
    (came : ∀ m ∈ moves, ∀ arrival purpose, m.action = .enter arrival →
      arrival.purpose? setting m.before = some purpose → Q purpose) :
    ∀ m ∈ moves, ∀ r, m.return? setting = some r → Q r.purpose := by
  intro m hm r ends
  obtain ⟨earlier, later, rfl, run, act, -⟩ := h.of_mem hm
  have waiting := run.forall_purposes fun m' hm' => came m' (List.mem_append_left _ hm')
  obtain ⟨before, action, after⟩ := m
  have effect : World.Effect setting before action after := World.effect_of_act? act
  have returns : before.return? setting action = some r := ends
  cases effect with
  | consult intent opening begun metrics ids log =>
    rw [World.return?_enter intent begun] at returns
    obtain ⟨outcome, -, rfl⟩ := Option.map_eq_some_iff.mp returns
    exact came _ hm _ _ rfl intent
  | dispatch intent reply metrics ids =>
    rw [World.return?_dispatch intent] at returns
    cases returns
  | visit client effect step metrics log =>
    rw [World.return?_client client step] at returns
    obtain ⟨outcome, -, rfl⟩ := Option.map_eq_some_iff.mp returns
    exact waiting _ _ (List.mem_of_getElem? client)
  | work worker? effect => cases returns
  | start interval => cases returns
  | signal index value => cases returns
  | close index => cases returns
  | wait duration => cases returns

end Service

end ProductSegments
