import ProductSegments.Proofs.Service.Progress
import ProductSegments.Proofs.Service.Request
import ProductSegments.Proofs.Service.Snapshot
import ProductSegments.Proofs.Service.Tracing

/-!
# Requests for a segment

A request for a segment is refused at once if its body holds no rules.  Any other one consults the
catalog once.  The response tells the segment of the products that come of that, or which failure
came of it, whatever happens to the catalog meanwhile and whether or not rules are traced.

## Main definitions

* `Web.Response.TellsSegment` — the response about a segment.
* `Service.Evaluates` — what becomes of a request for a segment.

## Main results

* `Service.Order.tellsSegment` — the response to an order tells the segment, or the failure.
* `Service.Run.asks_once` — without a cache a request calls the supplier once.
* `Service.Run.evaluates` — what becomes of a request for a segment, in every state.
-/

namespace ProductSegments

open Catalog (State Visit Worker Outcome)

/-! ### What is told -/

/-- The response tells the segment of some rules: of the products that there are, or that there are
none; or it tells the code of the failure to get any, and no products. -/
def Web.Response.TellsSegment (response : Web.Response) (rules : List String) : Outcome → Prop
  | .error failure => response.status = 500 ∧ response.body = Json.Writer.object [
      ("code", Json.Writer.string failure.code),
      ("error", Json.Writer.string "Failed to evaluate segment rules"),
      ("success", Json.Writer.flag false)]
  | .ok [] => response.status = 200 ∧ response.body = Json.Writer.object [
      ("success", Json.Writer.flag true),
      ("data", Json.Writer.array []),
      ("message", Json.Writer.string "No products found"),
      ("rules_applied", Json.Writer.array (rules.map Json.Writer.string))]
  | .ok (p :: ps) => (Segment.select (p :: ps) rules).Sublist (p :: ps) ∧
      response.status = 200 ∧ response.body = Json.Writer.object [
        ("success", Json.Writer.flag true),
        ("data", Json.Writer.array ((Segment.select (p :: ps) rules).map Product.chars)),
        ("count", Json.Writer.integer (p :: ps).length),
        ("rules_applied", Json.Writer.array (rules.map Json.Writer.string))]

namespace Service

variable {setting : Setting} {w next : World} {action : Action} {moves : List Move} {index : Nat}

/-- The response to an order tells the segment, or the failure. -/
theorem Order.tellsSegment (rules : List String) (traced : Bool) (outcome : Outcome)
    {response : Web.Response}
    (shown : response.shown = ((Order.evaluate rules).response traced outcome).shown) :
    response.TellsSegment rules outcome := by
  obtain ⟨status, body⟩ := Prod.mk.inj shown
  cases outcome with
  | error failure => exact ⟨status, body⟩
  | ok products =>
    cases products with
    | nil => exact ⟨status, body⟩
    | cons p ps =>
      refine ⟨?_, status, body.trans ?_⟩
      · rw [Segment.select_eq_products_report false, Segment.products_report]
        exact List.filter_sublist
      · rw [Segment.select_eq_products_report traced]
        rfl

/-! ### Calls without a cache -/

/-- The call that a visit without a cache waits for, and what comes of it. -/
def AsksFor (setting : Setting) (call : Nat) : Visit ⊕ Outcome → Prop
  | .inl visit => ∃ c, visit = .asking c ∧ c.index = call
  | .inr outcome => outcome = (setting.terms.supplier call).outcome

theorem AsksFor.step {call : Nat} {s s' : State} {visit : Visit} {result : Visit ⊕ Outcome}
    (asks : AsksFor setting call (.inl visit))
    (h : Visit.Effect setting.terms s visit s' result) :
    AsksFor setting call result ∧ s'.calls = s.calls := by
  obtain ⟨c, rfl, rfl⟩ := asks
  cases h with
  | asked due => exact ⟨rfl, rfl⟩

/-- Whoever consults the catalog without a cache calls the supplier. -/
theorem Opening.asksFor {purpose : Purpose} {s s' : State} {result : Visit ⊕ Outcome}
    (h : Opening setting purpose s s' result) (direct : setting.isCached = false) :
    AsksFor setting s.calls.length result ∧ s'.calls = s.now :: s.calls := by
  cases h with
  | ask _ => exact ⟨⟨_, rfl, rfl⟩, rfl⟩
  | refresh cached _ => exact absurd (direct.symm.trans cached) Bool.false_ne_true
  | served cached _ _ => exact absurd (direct.symm.trans cached) Bool.false_ne_true
  | turn cached _ _ _ => exact absurd (direct.symm.trans cached) Bool.false_ne_true
  | queue cached _ _ _ => exact absurd (direct.symm.trans cached) Bool.false_ne_true

/-- Whoever waits for a call without a cache makes no other one. -/
theorem Run.asks_once (h : Run setting w moves next) {purpose : Purpose} {result : Visit ⊕ Outcome}
    {call : Nat} (asks : AsksFor setting call result)
    (client : w.clients[index]? = some (.after setting purpose result)) :
    ∀ m ∈ moves, m.action = .client index → m.after.catalog.calls = m.before.catalog.calls := by
  rintro ⟨before, action, after⟩ hm rfl
  obtain ⟨earlier, -, -, run, act, -⟩ := h.of_mem hm
  obtain ⟨result', asks', client', -⟩ :=
    run.life (fun asks effect => (asks.step effect).1) asks client
  have effect : World.Effect setting before (.client index) after := World.effect_of_act? act
  cases effect with
  | visit visits effect step metrics log =>
    have same := client'.symm.trans visits
    cases result' with
    | inr outcome => cases same
    | inl visit =>
      obtain ⟨rfl, rfl⟩ := Client.visiting.inj (Option.some.inj same)
      exact (asks'.step effect).2

/-! ### What becomes of a request -/

/-- The move with which a request comes in. -/
def Move.ofRequest (setting : Setting) (w : World) (r : Web.Request) : Move :=
  ⟨w, .enter (.request r), w.enter setting (.request r)⟩

/-- What becomes of a request for a segment that comes in after some moves, in the state that they
have led to. -/
structure Evaluates (setting : Setting) (moves : List Move) (w : World) (r : Web.Request) :
    Prop where
  /-- If the body holds no rules, that is the answer.  Nobody is called, no turn is asked for, and
  of what is kept and counted nothing changes but the series about requests. -/
  rejected : ∀ rejection, rules? r = .error rejection → ∃ sent metrics,
    w.enter setting (.request r) = { w with
      catalog := { w.catalog with metrics }
      clients := w.clients ++ [.answered (.response sent)]
      ids := w.ids + 1 } ∧
    (∀ series : Series, series.isOfRequests = false → w.catalog.metrics.SameAt metrics series) ∧
    sent.status = 400 ∧ sent.body = Json.Writer.object [
      ("code", Json.Writer.string "INVALID_REQUEST"),
      ("details", Json.Writer.string (setting.wording r rejection)),
      ("error", Json.Writer.string "Invalid request format"),
      ("success", Json.Writer.flag false)]
  /-- Otherwise the catalog is consulted once, however the run goes on: the client still waits, or
  exactly one visit of it has ended and the response tells the segment of what came of that. -/
  accepted : ∀ rules, rules? r = .ok rules → ∀ more next,
    Run setting (w.enter setting (.request r)) more next →
    let visits := returnsTo setting w.clients.length (.ofRequest setting w r :: more)
    (visits = [] ∧ ∃ purpose visit,
      next.clients[w.clients.length]? = some (.visiting purpose visit)) ∨
    ∃ visit sent, visits = [visit] ∧
      next.clients[w.clients.length]? = some (.answered (.response sent)) ∧
      sent.TellsSegment rules visit.outcome
  /-- With a cache the products are what is kept in the moment in which the visit ends. -/
  cached : setting.isCached = true → ∀ more next,
    Run setting (w.enter setting (.request r)) more next →
    ∀ visit ∈ returnsTo setting w.clients.length (.ofRequest setting w r :: more),
    ∃ m ∈ Move.ofRequest setting w r :: more, m.return? setting = some visit ∧
      ∀ products, visit.outcome = .ok products → m.after.catalog.snapshot = some products
  /-- Without a cache they are the answer to the one call that is made for the request. -/
  direct : setting.isCached = false → ∀ rules, rules? r = .ok rules →
    (w.enter setting (.request r)).catalog.calls = w.catalog.now :: w.catalog.calls ∧
    ∀ more next, Run setting (w.enter setting (.request r)) more next →
      (∀ m ∈ more, m.action = .client w.clients.length →
        m.after.catalog.calls = m.before.catalog.calls) ∧
      ∀ visit ∈ returnsTo setting w.clients.length (.ofRequest setting w r :: more),
        visit.outcome = (setting.terms.supplier w.catalog.calls.length).outcome
  /-- An answer comes, if only the clients go on and time passes. -/
  settles : ∀ rules, rules? r = .ok rules → ∀ more next,
    Run setting (w.enter setting (.request r)) more next →
    ∃ rest last sent, Run setting next rest last ∧ (∀ m ∈ rest, m.action.isOnward = true) ∧
      last.clients[w.clients.length]? = some (.answered (.response sent))
  /-- With or without tracing everybody is answered the same. -/
  traced : ∀ traced more next, Run setting (w.enter setting (.request r)) more next →
    ∃ moves' next', Run (setting.tracing traced) .initial moves' next' ∧
      moves'.map (·.action) =
        moves.map (·.action) ++ .enter (.request r) :: more.map (·.action) ∧
      next'.clients = next.clients

section Request

variable {r : Web.Request} {rules : List String}

/-- The purpose of a request for the segment of some rules. -/
def Setting.evaluation (setting : Setting) (w : World) (r : Web.Request) (rules : List String) :
    Purpose :=
  .serve ⟨r, r.id (setting.freshId w.ids), .evaluate rules⟩

/-- It is answered when its visit ends, by a response that tells the segment or the failure. -/
theorem Setting.exists_answer (setting : Setting) (w : World) (post : r.method = "POST")
    (rules : List String) (outcome : Outcome) : ∃ sent,
    Client.after setting (setting.evaluation w r rules) (.inr outcome) =
      .answered (.response sent) ∧ sent.TellsSegment rules outcome := by
  obtain ⟨sent, reply, shown⟩ :=
    Purpose.exists_reply setting ⟨r, r.id (setting.freshId w.ids), .evaluate rules⟩ outcome
  have head : r.method ≠ "HEAD" := by
    rw [post]
    decide
  rw [headOnly_of_ne head] at shown
  exact ⟨sent, congrArg Client.answered reply, Order.tellsSegment rules _ outcome shown⟩

/-- A request for a segment consults the catalog. -/
theorem World.enter_evaluation (usual : setting.routes = routes) (post : r.method = "POST")
    (path : r.path = "/segments/evaluate") (accepted : rules? r = .ok rules) : ∃ s result,
    Opening setting (setting.evaluation w r rules) w.catalog s result ∧
    (w.enter setting (.request r)).catalog.calls = s.calls ∧
    (w.enter setting (.request r)).clients[w.clients.length]? =
      some (.after setting (setting.evaluation w r rules) result) ∧
    returnsTo setting w.clients.length [.ofRequest setting w r] =
      Return.ofResult w.clients.length (setting.evaluation w r rules) result := by
  have plan := Setting.plan_evaluate usual (r.id (setting.freshId w.ids)) post path
  rw [accepted] at plan
  obtain ⟨s, result, opening, clients, calls, returns⟩ :=
    w.enter_of_purpose (World.purpose?_of_order plan)
  refine ⟨s, result, opening, calls, ?_, ?_⟩
  · rw [clients]
    exact List.getElem?_concat_length
  · rw [returnsTo_singleton, Move.return?, Move.ofRequest, returns]
    exact Return.filter_ofResult ..

/-- A request for a segment makes one visit, and is answered when that ends. -/
theorem Run.evaluation (h : Run setting (w.enter setting (.request r)) moves next)
    (usual : setting.routes = routes) (post : r.method = "POST")
    (path : r.path = "/segments/evaluate") (accepted : rules? r = .ok rules) : ∃ result,
    next.clients[w.clients.length]? =
      some (.after setting (setting.evaluation w r rules) result) ∧
    (setting.isCached = false → AsksFor setting w.catalog.calls.length result) ∧
    returnsTo setting w.clients.length (.ofRequest setting w r :: moves) =
      Return.ofResult w.clients.length (setting.evaluation w r rules) result := by
  obtain ⟨s, first, opening, -, client, returns⟩ :=
    w.enter_evaluation usual post path accepted
  obtain ⟨result, asks, client', returns'⟩ := h.life
    (P := fun result => setting.isCached = false → AsksFor setting w.catalog.calls.length result)
    (fun asks effect direct => ((asks direct).step effect).1)
    (fun direct => (opening.asksFor direct).1) client
  refine ⟨result, client', asks, ?_⟩
  rw [← returns', ← returns, ← returnsTo_append]
  rfl

/-- Its client waits for the catalog, or has been told the segment or the failure. -/
theorem Run.evaluation_told (h : Run setting (w.enter setting (.request r)) moves next)
    (usual : setting.routes = routes) (post : r.method = "POST")
    (path : r.path = "/segments/evaluate") (accepted : rules? r = .ok rules) :
    let visits := returnsTo setting w.clients.length (.ofRequest setting w r :: moves)
    (visits = [] ∧ ∃ purpose visit,
      next.clients[w.clients.length]? = some (.visiting purpose visit)) ∨
    ∃ visit sent, visits = [visit] ∧
      next.clients[w.clients.length]? = some (.answered (.response sent)) ∧
      sent.TellsSegment rules visit.outcome := by
  obtain ⟨result, client, -, returns⟩ := h.evaluation usual post path accepted
  intro visits
  rw [show visits = _ from returns]
  cases result with
  | inl visit => exact .inl ⟨rfl, _, visit, client⟩
  | inr outcome =>
    obtain ⟨sent, answered, tells⟩ := setting.exists_answer w post rules outcome
    exact .inr ⟨_, sent, rfl, client.trans (congrArg some answered), tells⟩

/-- An answer comes, if only the clients go on and time passes. -/
theorem Run.evaluation_settles {before : List Move} (h : Run setting .initial before w)
    (h' : Run setting (w.enter setting (.request r)) moves next)
    (usual : setting.routes = routes) (post : r.method = "POST")
    (path : r.path = "/segments/evaluate") (accepted : rules? r = .ok rules) :
    ∃ rest last sent, Run setting next rest last ∧ (∀ m ∈ rest, m.action.isOnward = true) ∧
      last.clients[w.clients.length]? = some (.answered (.response sent)) := by
  have entry : Run setting w (.ofRequest setting w r :: moves) next :=
    Run.cons_iff.mpr ⟨rfl, rfl, h'⟩
  have orderly : next.Orderly := (h.append entry).orderly
  obtain ⟨rest, last, run, onward, all⟩ : ∃ rest last, Run setting next rest last ∧
      (∀ m ∈ rest, m.action.isOnward = true) ∧ ∀ c ∈ last.clients, c.isAnswered = true :=
    orderly.settles
  obtain ⟨result, client, -, -⟩ := (h'.append run).evaluation usual post path accepted
  have settled := all _ (List.mem_of_getElem? client)
  cases result with
  | inl visit => cases settled
  | inr outcome =>
    obtain ⟨sent, answered, -⟩ := setting.exists_answer w post rules outcome
    exact ⟨rest, last, sent, run, onward, client.trans (congrArg some answered)⟩

end Request

/-- **What becomes of a request for a segment**, in every state that the service can get into. -/
theorem Run.evaluates (usual : setting.routes = routes) (h : Run setting .initial moves w)
    {r : Web.Request} (post : r.method = "POST") (path : r.path = "/segments/evaluate") :
    Evaluates setting moves w r := by
  have plan := Setting.plan_evaluate usual (r.id (setting.freshId w.ids)) post path
  have head : r.method ≠ "HEAD" := by
    rw [post]
    decide
  have entry : ∀ more next, Run setting (w.enter setting (.request r)) more next →
      Run setting w (.ofRequest setting w r :: more) next :=
    fun more next run => Run.cons_iff.mpr ⟨rfl, rfl, run⟩
  constructor
  case rejected =>
    intro rejection rejected
    rw [rejected] at plan
    obtain ⟨sent, metrics, enters, shown, same⟩ := World.enter_of_response plan
    rw [headOnly_of_ne head] at shown
    obtain ⟨status, body⟩ := Prod.mk.inj shown
    exact ⟨sent, metrics, enters, same, status, body⟩
  case accepted =>
    exact fun rules accepted more next run => run.evaluation_told usual post path accepted
  case cached =>
    intro cached more next run visit visits
    obtain ⟨m, hm, returns⟩ := exists_of_mem_returnsTo visits
    obtain ⟨earlier, -, -, before, act, -⟩ := (entry more next run).of_mem hm
    refine ⟨m, hm, returns, fun products ok => ?_⟩
    exact (World.effect_of_act? act).snapshot_of_return cached (h.append before).fits returns ok
  case direct =>
    intro direct rules accepted
    obtain ⟨s, first, opening, calls, client, -⟩ := w.enter_evaluation usual post path accepted
    obtain ⟨asks, called⟩ := opening.asksFor direct
    refine ⟨calls.trans called, fun more next run => ⟨run.asks_once asks client, ?_⟩⟩
    obtain ⟨result, -, asks', returns⟩ := run.evaluation usual post path accepted
    rw [returns]
    intro visit visits
    cases result with
    | inl visit => cases visits
    | inr outcome =>
      obtain rfl := List.mem_singleton.mp visits
      exact asks' direct
  case settles =>
    exact fun rules accepted more next run => h.evaluation_settles run usual post path accepted
  case traced =>
    intro traced more next run
    obtain ⟨moves', next', run', same, log, rfl⟩ :=
      (h.append (entry more next run)).tracing (World.alike_refl _) traced
    exact ⟨moves', _, run', by rw [same, List.map_append]; rfl, rfl⟩

/-- A request for all products on sale. -/
def onSale : Web.Request where
  method := "POST"
  target := "/segments/evaluate"
  headers := [("content-type", Utf8.ofString "application/json")]
  body := Utf8.ofString "\x7b\"rules\":[\"on_sale = true\"]\x7d"

/-- It comes in while somebody else is waiting for the products. -/
theorem Run.evaluates_onSale : ∃ moves w,
    Run (.cached ⟨faltering, .standard⟩) .initial moves w ∧ w.clients.length = 1 ∧
    onSale.method = "POST" ∧ onSale.path = "/segments/evaluate" ∧
    (rules? onSale).toOption = some ["on_sale = true"] ∧
    Evaluates (.cached ⟨faltering, .standard⟩) moves w onSale := by
  have played : (World.initial.play? (.cached ⟨faltering, .standard⟩)
      [.start 60000, .worker 0 .ticks, .enter .fetch, .wait 1]).any
      (fun result => result.2.clients.length = 1) = true := by
    decide +kernel
  obtain ⟨moves, w, run, one⟩ := Run.exists_of_play? played
  have path : onSale.path = "/segments/evaluate" := by decide +kernel
  exact ⟨moves, w, run, of_decide_eq_true one, rfl, path, by decide +kernel,
    run.evaluates rfl rfl path⟩

end Service

end ProductSegments
