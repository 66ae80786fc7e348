import ProductSegments.Proofs.Metrics
import ProductSegments.Proofs.Service.Event

/-!
# Requests and their answers

A request is answered at once, or its order leads to one visit to the catalog, whose end is the
answer.  What is shown to the client is settled by the request and by the outcome of the visit:
ids and the origins of pages go into headers only.

## Main definitions

* `Web.Response.shown` — what a response says, its headers aside.
* `Service.returnsTo` — the visits of a client that end with some moves.

## Main results

* `Service.plan_congr` — what is done with a request does not depend on its id.
* `Service.World.enter_of_response`, `Service.World.enter_of_purpose` — who comes in is answered at
  once, or consults the catalog.
* `Service.World.Effect.life` — an action leaves a client alone, or is a step of its visit.
* `Service.Run.life`, `Service.Run.stays_answered` — a client has one visit, and is answered when
  that ends.
-/

namespace ProductSegments

open Catalog (State Visit Worker Outcome)

/-! ### What is shown -/

/-- What a response says: its status and its body. -/
def Web.Response.shown (r : Web.Response) : Nat × List Char := (r.status, r.body)

@[simp] theorem Web.Response.shown_withId (id : List Char) (r : Web.Response) :
    (r.withId id).shown = r.shown := rfl

@[simp] theorem Web.Cors.shown_mark (c : Web.Cors) (request : Web.Request) (r : Web.Response) :
    (c.mark request r).shown = r.shown := rfl

namespace Service

/-- Only who asks for the head of a response goes without its body. -/
theorem headOnly_of_ne {r : Web.Request} (h : r.method ≠ "HEAD") (response : Web.Response) :
    headOnly r response = response := if_neg h

variable {setting : Setting} {w next : World} {action : Action} {moves : List Move} {index : Nat}

/-- A response that is sent shows what it is to show, changes no series but those of requests, and
leaves everything else as it is. -/
theorem World.exists_send (setting : Setting) (w : World) (request : Web.Request) (id : List Char)
    (response : Web.Response) : ∃ sent metrics,
      w.send setting request id response =
        ({ w with catalog := { w.catalog with metrics } }, .response sent) ∧
      sent.shown = (headOnly request response).shown ∧
      ∀ series : Series, series.isOfRequests = false → w.catalog.metrics.SameAt metrics series := by
  have marked : (setting.cors?.elim (headOnly request response)
      (·.mark request (headOnly request response))).shown = (headOnly request response).shown := by
    cases setting.cors? with
    | none => rfl
    | some cors => exact cors.shown_mark request _
  cases layered : setting.isLayered with
  | true =>
    refine ⟨_, _, by simp only [send, layered, if_true]; rfl,
      (Web.Response.shown_withId id _).trans marked, ?_⟩
    intro series h
    exact Metrics.sameAt_served _ _ _ _ h
  | false =>
    exact ⟨_, w.catalog.metrics, by simp only [send, layered, Bool.false_eq_true, if_false], marked,
      fun series _ => Metrics.sameAt_refl _ series⟩

/-- The answer to a request whose visit has ended shows the response to its order. -/
theorem Purpose.exists_reply (setting : Setting) (exchange : Exchange) (outcome : Outcome) :
    ∃ sent, Purpose.reply setting (.serve exchange) outcome = .response sent ∧
      sent.shown = (headOnly exchange.request
        (exchange.order.response setting.isTraced outcome)).shown := by
  obtain ⟨request, id, order⟩ := exchange
  have reply : ∃ w : World, Purpose.reply setting (.serve ⟨request, id, order⟩) outcome =
      (w.send setting request id (order.response setting.isTraced outcome)).2 := ⟨_, rfl⟩
  obtain ⟨w, reply⟩ := reply
  obtain ⟨sent, metrics, send, shown, -⟩ :=
    w.exists_send setting request id (order.response setting.isTraced outcome)
  exact ⟨sent, reply.trans (congrArg Prod.snd send), shown⟩

/-! ### What is done with a request -/

theorem route?_ne_identity {r : Web.Request} {path : String} {endpoint : Endpoint}
    (h : route? routes r = some (path, endpoint)) : endpoint ≠ .identity := by
  rintro rfl
  have member := List.mem_of_find?_eq_some h
  have none : ∀ route ∈ routes, route.2 ≠ Endpoint.identity := by decide
  exact none _ member rfl

/-- No route of the service shows the id of a request. -/
theorem plan_routes_congr (wording : Wording) (id id' : List Char) (r : Web.Request) :
    plan wording routes id r = plan wording routes id' r := by
  unfold plan
  cases h : route? routes r with
  | none => rfl
  | some route =>
    obtain ⟨path, endpoint⟩ := route
    have shows := route?_ne_identity h
    cases endpoint with
    | identity => exact absurd rfl shows
    | evaluate => rfl
    | products => rfl
    | refresh => rfl
    | health => rfl

theorem Setting.plan_congr (usual : setting.routes = Service.routes) (id id' : List Char)
    (r : Web.Request) : setting.plan id r = setting.plan id' r := by
  rw [Setting.plan, Setting.plan, usual, guardedPlan, guardedPlan, plan_routes_congr _ id id']

/-- What is done with a request for a segment. -/
theorem Setting.plan_evaluate (usual : setting.routes = Service.routes) (id : List Char)
    {r : Web.Request} (post : r.method = "POST") (path : r.path = "/segments/evaluate") :
    setting.plan id r = match rules? r with
      | .ok rules => .inr (.evaluate rules)
      | .error rejection =>
        .inl (Problem.invalidRequest (setting.wording r rejection)).response := by
  have noQuestion : Web.Cors.isPreflight r = false := by
    rw [Web.Cors.isPreflight, post]
    decide
  have route : route? Service.routes r = some ("/segments/evaluate", .evaluate) := by
    rw [route?, path]
    decide
  have welcome : Endpoint.evaluate.methods.contains r.method = true := by
    rw [post]
    decide
  rw [Setting.plan, usual, guardedPlan, noQuestion, Bool.and_false, if_neg Bool.false_ne_true,
    Service.plan, route]
  simp only [welcome]
  rfl

namespace World

/-- A request that is answered at once leaves the catalog alone, its series about requests aside. -/
theorem enter_of_response {r : Web.Request} {response : Web.Response}
    (atOnce : setting.plan (r.id (setting.freshId w.ids)) r = .inl response) : ∃ sent metrics,
      w.enter setting (.request r) = { w with
        catalog := { w.catalog with metrics }
        clients := w.clients ++ [.answered (.response sent)]
        ids := w.ids + 1 } ∧
      sent.shown = (headOnly r response).shown ∧
      ∀ series : Series, series.isOfRequests = false → w.catalog.metrics.SameAt metrics series := by
  obtain ⟨sent, metrics, send, shown, same⟩ := exists_send setting { w with ids := w.ids + 1 } r
    (r.id (setting.freshId w.ids)) response
  exact ⟨sent, metrics, by simp only [enter, receive, atOnce, send], shown, same⟩

/-- Any other request consults the catalog for its order. -/
theorem purpose?_of_order {r : Web.Request} {order : Order}
    (ordered : setting.plan (r.id (setting.freshId w.ids)) r = .inr order) :
    Arrival.purpose? setting w (.request r) =
      some (.serve ⟨r, r.id (setting.freshId w.ids), order⟩) := by
  simp only [Arrival.purpose?, ordered]

/-- Whoever comes to consult the catalog begins a visit, or is answered at once. -/
theorem enter_of_purpose {arrival : Arrival} {purpose : Purpose}
    (intent : arrival.purpose? setting w = some purpose) : ∃ s result,
      Opening setting purpose w.catalog s result ∧
      (w.enter setting arrival).clients = w.clients ++ [.after setting purpose result] ∧
      (w.enter setting arrival).catalog.calls = s.calls ∧
      w.return? setting (.enter arrival) =
        result.getRight?.map (Return.mk w.clients.length purpose) := by
  have effect : Effect setting w (.enter arrival) (w.enter setting arrival) := effect_enter arrival
  generalize w.enter setting arrival = next at effect
  cases effect with
  | consult intent' opening begun metrics ids log =>
    obtain rfl := Option.some.inj (intent'.symm.trans intent)
    exact ⟨_, _, opening, rfl, rfl, return?_enter intent begun⟩
  | dispatch intent' reply metrics ids =>
    have no := intent'.symm.trans intent
    cases no

end World

/-! ### The life of a client -/

/-- The visits of a client that end with some moves. -/
def returnsTo (setting : Setting) (index : Nat) (moves : List Move) : List Return :=
  moves.filterMap fun m => (m.return? setting).filter (·.client = index)

theorem returnsTo_append (setting : Setting) (index : Nat) (moves moves' : List Move) :
    returnsTo setting index (moves ++ moves') =
      returnsTo setting index moves ++ returnsTo setting index moves' := List.filterMap_append

theorem returnsTo_singleton (setting : Setting) (index : Nat) (m : Move) :
    returnsTo setting index [m] = ((m.return? setting).filter (·.client = index)).toList := by
  rw [returnsTo]
  cases h : (m.return? setting).filter (·.client = index) <;> simp [h]

/-- A visit to which a client returns has ended with a move. -/
theorem exists_of_mem_returnsTo {r : Return} (h : r ∈ returnsTo setting index moves) :
    ∃ m ∈ moves, m.return? setting = some r := by
  obtain ⟨m, hm, filtered⟩ := List.mem_filterMap.mp h
  exact ⟨m, hm, (Option.filter_eq_some_iff.mp filtered).1⟩

/-- The end of a part of a client's visit, if that was its last part. -/
def Return.ofResult (index : Nat) (purpose : Purpose) (result : Visit ⊕ Outcome) : List Return :=
  (result.getRight?.map (Return.mk index purpose)).toList

/-- The client returns from its own visits. -/
theorem Return.filter_ofResult (index : Nat) (purpose : Purpose) (result : Visit ⊕ Outcome) :
    ((result.getRight?.map (Return.mk index purpose)).filter (·.client = index)).toList =
      ofResult index purpose result := by
  cases result with
  | inl visit => rfl
  | inr outcome => exact congrArg Option.toList (Option.filter_some_pos (decide_eq_true rfl))

/-- An action leaves a client alone, or is a step of its visit. -/
theorem World.Effect.life (h : World.Effect setting w action next) {c : Client}
    (client : w.clients[index]? = some c) :
    (next.clients[index]? = some c ∧
      (w.return? setting action).filter (·.client = index) = none) ∨
    ∃ purpose visit s result, c = .visiting purpose visit ∧
      Visit.Effect setting.terms w.catalog visit s result ∧
      next.clients[index]? = some (.after setting purpose result) ∧
      w.return? setting action = result.getRight?.map (Return.mk index purpose) := by
  have there : index < w.clients.length := (List.getElem?_eq_some_iff.mp client).1
  have came : ∀ new, (w.clients ++ [new])[index]? = some c := by
    intro new
    rw [List.getElem?_append_left there]
    exact client
  -- a visit of another client does not end for this one
  have others : ∀ (other : Nat) (purpose : Purpose) (result : Visit ⊕ Outcome), other ≠ index →
      (result.getRight?.map (Return.mk other purpose)).filter (·.client = index) = none := by
    intro other purpose result ne
    cases result with
    | inl visit => rfl
    | inr outcome => exact Option.filter_some_neg (by simpa using ne)
  cases h with
  | consult intent opening begun metrics ids log =>
    refine .inl ⟨came _, ?_⟩
    rw [World.return?_enter intent begun]
    exact others _ _ _ (by omega)
  | dispatch intent reply metrics ids =>
    refine .inl ⟨came _, ?_⟩
    rw [World.return?_dispatch intent]
    rfl
  | @visit other purpose visit s result client' effect step metrics log =>
    have returns := World.return?_client client' step
    by_cases same : other = index
    · subst same
      obtain rfl := Option.some.inj (client'.symm.trans client)
      exact .inr ⟨purpose, visit, s, result, rfl, effect, List.getElem?_set_self there, returns⟩
    · refine .inl ⟨?_, ?_⟩
      · rw [List.getElem?_set_ne same]
        exact client
      · rw [returns]
        exact others _ _ _ same
  | work worker? effect => exact .inl ⟨client, rfl⟩
  | start interval => exact .inl ⟨client, rfl⟩
  | signal index value => exact .inl ⟨client, rfl⟩
  | close index => exact .inl ⟨client, rfl⟩
  | wait duration => exact .inl ⟨client, rfl⟩

/-- **A client has one visit**, and is answered when that ends.  What every step of the visit keeps
holds of its end. -/
theorem Run.life {P : Visit ⊕ Outcome → Prop}
    (kept : ∀ {s visit s' result}, P (.inl visit) → Visit.Effect setting.terms s visit s' result →
      P result)
    (h : Run setting w moves next) {purpose : Purpose} {result : Visit ⊕ Outcome} (first : P result)
    (client : w.clients[index]? = some (.after setting purpose result)) :
    ∃ result', P result' ∧ next.clients[index]? = some (.after setting purpose result') ∧
      Return.ofResult index purpose result ++ returnsTo setting index moves =
        Return.ofResult index purpose result' := by
  induction h with
  | refl => exact ⟨result, first, client, List.append_nil _⟩
  | @snoc moves v next action run act ih =>
    obtain ⟨now, holds, client', returns⟩ := ih
    have last : returnsTo setting index [⟨v, action, next⟩] =
        ((v.return? setting action).filter (·.client = index)).toList := returnsTo_singleton ..
    rw [returnsTo_append, ← List.append_assoc, returns, last]
    rcases (World.effect_of_act? act).life client' with ⟨same, none⟩ |
      ⟨purpose', visit, s, result', eq, effect, after, ends⟩
    · exact ⟨now, holds, same, by rw [none, Option.toList_none, List.append_nil]⟩
    · cases now with
      | inr outcome => cases eq
      | inl visit' =>
        obtain ⟨rfl, rfl⟩ := Client.visiting.inj eq
        refine ⟨result', kept holds effect, after, ?_⟩
        rw [ends]
        exact Return.filter_ofResult index purpose result'

/-- Whoever has been answered stays so. -/
theorem Run.stays_answered (h : Run setting w moves next) {reply : Reply}
    (client : w.clients[index]? = some (.answered reply)) :
    next.clients[index]? = some (.answered reply) := by
  induction h with
  | refl => exact client
  | snoc run act ih =>
    rcases (World.effect_of_act? act).life ih with ⟨same, -⟩ | ⟨purpose, visit, s, result, eq, -⟩
    · exact same
    · cases eq

end Service

end ProductSegments
