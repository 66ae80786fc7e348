import Mathlib.Logic.Relation
import ProductSegments.Proofs.Catalog.Steps
import ProductSegments.Service.World

/-!
# Runs of the service

A run is a list of moves, each a step of the service with the states before and after it.  All
orders of the steps of clients and workers are runs, so a statement about every run is one about
every interleaving at the points where somebody waits.

## Main definitions

* `Service.Action` — what can happen next; `Service.World.act?` is what comes of it.
* `Service.Move`, `Service.Run` — moves and runs.
* `Service.World.Effect` — what an action can do to the service, said once.
* `Service.World.play?` — the run of a list of actions.
* `Service.Setting.cached` — a service that keeps its catalog, and nothing besides.

## Main results

* `Service.World.step_iff_act?` — the actions are exactly the steps of the service.
* `Service.Run.exists_iff_reaches` — runs lead wherever steps lead.
* `Service.World.effect_of_act?` — an action does what `World.Effect` says.
* `Service.Run.append_iff` — runs can be put together and taken apart.
-/

namespace ProductSegments.Service

open Catalog (State Visit Worker Outcome)

/-! ### Actions -/

/-- What can happen next to a running service. -/
inductive Action where
  | enter (arrival : World.Arrival)
  | client (index : Nat)
  | worker (index : Nat) (attention : World.Attention)
  | start (interval : Nat)
  | signal (index : Nat) (value : Bool)
  | close (index : Nat)
  | wait (duration : Nat)
  deriving DecidableEq

/-- What comes of an action, unless it is one of somebody who has to wait. -/
def World.act? (setting : Setting) (w : World) : Action → Option World
  | .enter arrival => some (w.enter setting arrival)
  | .client index => w.stepClient? setting index
  | .worker index attention => w.stepWorker? setting index attention
  | .start interval => some { w with workers := w.workers ++ [.start w.catalog.now interval] }
  | .signal index value => some { w with workers := w.workers.modify index (.send value) }
  | .close index => some { w with workers := w.workers.modify index .close }
  | .wait duration => some (w.wait duration)

/-- **The actions are exactly the steps of the service.** -/
theorem World.step_iff_act? {setting : Setting} {w next : World} :
    World.Step setting w next ↔ ∃ action, w.act? setting action = some next := by
  constructor
  · intro h
    cases h with
    | enter arrival => exact ⟨.enter arrival, rfl⟩
    | client index h => exact ⟨.client index, h⟩
    | worker index attention h => exact ⟨.worker index attention, h⟩
    | start interval => exact ⟨.start interval, rfl⟩
    | signal index value => exact ⟨.signal index value, rfl⟩
    | close index => exact ⟨.close index, rfl⟩
    | wait duration => exact ⟨.wait duration, rfl⟩
  · rintro ⟨action, h⟩
    cases action with
    | client index => exact .client index h
    | worker index attention => exact .worker index attention h
    | enter arrival => obtain rfl := Option.some.inj h; exact .enter w arrival
    | start interval => obtain rfl := Option.some.inj h; exact .start w interval
    | signal index value => obtain rfl := Option.some.inj h; exact .signal w index value
    | close index => obtain rfl := Option.some.inj h; exact .close w index
    | wait duration => obtain rfl := Option.some.inj h; exact .wait w duration

/-! ### Consulting the catalog -/

/-- The purpose is to refresh the catalog. -/
def Purpose.isRefresh : Purpose → Bool
  | .refresh | .serve ⟨_, _, .refresh⟩ => true
  | _ => false

/-- How a visit to the catalog begins. -/
def Setting.consult (setting : Setting) (purpose : Purpose) (s : State) :
    State × (Visit ⊕ Outcome) :=
  if !setting.isCached then s.ask setting.terms
  else if purpose.isRefresh then s.refresh setting.terms
  else s.read setting.terms

/-- The beginning of a visit. -/
inductive Opening (setting : Setting) (purpose : Purpose) (s : State) :
    State → Visit ⊕ Outcome → Prop where
  | ask (direct : setting.isCached = false) :
      Opening setting purpose s (s.call setting.terms).1 (.inl (.asking (s.call setting.terms).2))
  | refresh (cached : setting.isCached = true) (refresh : purpose.isRefresh = true) :
      Opening setting purpose s (s.call setting.terms).1
        (.inl (.refreshing (.calling 0 (s.call setting.terms).2)))
  /-- A reader finds products. -/
  | served {products : List Product} (cached : setting.isCached = true)
      (read : purpose.isRefresh = false) (kept : s.snapshot = some products) :
      Opening setting purpose s s (.inr (.ok products))
  /-- A reader finds none and nobody before it, so it begins a refresh. -/
  | turn (cached : setting.isCached = true) (read : purpose.isRefresh = false)
      (cold : s.snapshot = none) (free : s.holder = none) :
      Opening setting purpose s
        ({ s with tickets := s.tickets + 1, holder := some s.tickets }.call setting.terms).1
        (.inl (.loading (.calling 0 (s.call setting.terms).2)))
  /-- A reader finds none and others before it. -/
  | queue {ticket : Nat} (cached : setting.isCached = true) (read : purpose.isRefresh = false)
      (cold : s.snapshot = none) (taken : s.holder = some ticket) :
      Opening setting purpose s
        { s with tickets := s.tickets + 1, queue := s.queue ++ [s.tickets] }
        (.inl (.queued s.tickets))

theorem opening_consult (setting : Setting) (purpose : Purpose) (s : State) :
    Opening setting purpose s (setting.consult purpose s).1 (setting.consult purpose s).2 := by
  unfold Setting.consult
  cases hc : setting.isCached with
  | false => exact .ask hc
  | true =>
    cases hp : purpose.isRefresh with
    | true => exact .refresh hc hp
    | false =>
      simp only [Bool.not_true, Bool.false_eq_true, if_false]
      obtain ⟨now, calls, snapshot, holder, queue, tickets, metrics⟩ := s
      cases snapshot with
      | some products => exact .served hc hp rfl
      | none =>
        cases holder with
        | none => exact .turn hc hp rfl rfl
        | some ticket => exact .queue hc hp rfl rfl

/-- A reader that finds products is given them, and nothing changes. -/
theorem Opening.eq_of_snapshot {setting : Setting} {purpose : Purpose} {s s' : State}
    {result : Visit ⊕ Outcome} (h : Opening setting purpose s s' result)
    (cached : setting.isCached = true) (read : purpose.isRefresh = false) {products : List Product}
    (kept : s.snapshot = some products) : s' = s ∧ result = .inr (.ok products) := by
  cases h with
  | ask direct =>
    rw [direct] at cached
    cases cached
  | refresh _ refresh =>
    rw [refresh] at read
    cases read
  | served _ _ kept' =>
    obtain rfl := Option.some.inj (kept'.symm.trans kept)
    exact ⟨rfl, rfl⟩
  | turn _ _ cold _ =>
    rw [cold] at kept
    cases kept
  | queue _ _ cold _ =>
    rw [cold] at kept
    cases kept

/-- What somebody gets from the service for the outcome of a visit. -/
def Purpose.reply (setting : Setting) (purpose : Purpose) (outcome : Outcome) : Reply :=
  (World.initial.answer setting purpose outcome).2

/-- A client after a part of its visit. -/
def Client.after (setting : Setting) (purpose : Purpose) : Visit ⊕ Outcome → Client
  | .inl visit => .visiting purpose visit
  | .inr outcome => .answered (purpose.reply setting outcome)

/-- The purpose for which an arrival consults the catalog, if it does. -/
def World.Arrival.purpose? (setting : Setting) (w : World) : World.Arrival → Option Purpose
  | .fetch => some .fetch
  | .refresh => some .refresh
  | .request r =>
    match setting.plan (r.id (setting.freshId w.ids)) r with
    | .inl _ => none
    | .inr order => some (.serve ⟨r, r.id (setting.freshId w.ids), order⟩)

namespace World

variable (setting : Setting) (w : World)

theorem send_eq (request : Web.Request) (id : List Char) (response : Web.Response) :
    ∃ metrics, w.send setting request id response =
      ({ w with catalog := { w.catalog with metrics } },
        (World.initial.send setting request id response).2) := by
  cases hl : setting.isLayered with
  | true => exact ⟨_, by simp only [send, hl, if_true]; rfl⟩
  | false => exact ⟨w.catalog.metrics, by simp [send, hl]⟩

theorem recordEvaluation_eq (products : List Product) (rules : List String) :
    ∃ metrics log, w.recordEvaluation setting products rules =
      { w with catalog := { w.catalog with metrics }, log } := by
  unfold recordEvaluation
  split
  · exact ⟨w.catalog.metrics, w.log, rfl⟩
  · exact ⟨_, _, rfl⟩

/-- An answer leaves everything but metrics and log as it is, and does not depend on them. -/
theorem answer_eq (purpose : Purpose) (outcome : Outcome) :
    ∃ metrics log, w.answer setting purpose outcome =
      ({ w with catalog := { w.catalog with metrics }, log }, purpose.reply setting outcome) := by
  cases purpose with
  | fetch => exact ⟨w.catalog.metrics, w.log, rfl⟩
  | refresh => exact ⟨w.catalog.metrics, w.log, rfl⟩
  | serve exchange =>
    -- the evaluation is recorded first, if there is one, and then the response is sent
    have sent : ∀ (w v : World) (response : Web.Response),
        (∃ metrics log, v = { w with catalog := { w.catalog with metrics }, log }) →
        ∃ metrics log, v.send setting exchange.request exchange.id response =
          ({ w with catalog := { w.catalog with metrics }, log },
            (World.initial.send setting exchange.request exchange.id response).2) := by
      rintro w v response ⟨metrics, log, rfl⟩
      obtain ⟨metrics', hs⟩ :=
        send_eq setting { w with catalog := { w.catalog with metrics }, log }
          exchange.request exchange.id response
      exact ⟨metrics', log, hs⟩
    have reply : ∀ v : World, (v.send setting exchange.request exchange.id
        (exchange.order.response setting.isTraced outcome)).2 = (World.initial.send setting
          exchange.request exchange.id (exchange.order.response setting.isTraced outcome)).2 := by
      intro v
      obtain ⟨metrics, hs⟩ := send_eq setting v exchange.request exchange.id
        (exchange.order.response setting.isTraced outcome)
      rw [hs]
    have hr : Purpose.reply setting (.serve exchange) outcome = (World.initial.send setting
        exchange.request exchange.id (exchange.order.response setting.isTraced outcome)).2 :=
      reply _
    rw [hr]
    refine sent w _ (exchange.order.response setting.isTraced outcome) ?_
    split
    · exact recordEvaluation_eq setting w _ _
    · exact ⟨w.catalog.metrics, w.log, rfl⟩

theorem settle_eq (purpose : Purpose) (result : State × (Visit ⊕ Outcome)) :
    ∃ metrics log, w.settle setting purpose result =
      ({ w with catalog := { result.1 with metrics }, log },
        Client.after setting purpose result.2) := by
  obtain ⟨s, visit | outcome⟩ := result
  · exact ⟨s.metrics, w.log, rfl⟩
  · obtain ⟨metrics, log, h⟩ := answer_eq setting { w with catalog := s } purpose outcome
    exact ⟨metrics, log, by simp only [settle, h]; rfl⟩

theorem consult_eq (purpose : Purpose) :
    w.consult setting purpose = w.settle setting purpose (setting.consult purpose w.catalog) :=
  rfl

end World

/-! ### What an action does -/

/-- What an action can do to the service. -/
inductive World.Effect (setting : Setting) (w : World) : Action → World → Prop where
  /-- Somebody comes in and consults the catalog. -/
  | consult {arrival : World.Arrival} {purpose : Purpose} {s : State} {result : Visit ⊕ Outcome}
      (intent : arrival.purpose? setting w = some purpose)
      (opening : Opening setting purpose w.catalog s result)
      (begun : setting.consult purpose w.catalog = (s, result))
      (metrics : Metrics) (ids : Nat) (log : List String) :
      Effect setting w (.enter arrival)
        { catalog := { s with metrics }
          clients := w.clients ++ [.after setting purpose result]
          workers := w.workers, ids, log }
  /-- Somebody comes in and is answered without the catalog. -/
  | dispatch {arrival : World.Arrival} (intent : arrival.purpose? setting w = none)
      (reply : Reply) (metrics : Metrics) (ids : Nat) :
      Effect setting w (.enter arrival)
        { w with
          catalog := { w.catalog with metrics }
          clients := w.clients ++ [.answered reply], ids }
  | visit {index : Nat} {purpose : Purpose} {visit : Visit} {s : State} {result : Visit ⊕ Outcome}
      (client : w.clients[index]? = some (.visiting purpose visit))
      (effect : Visit.Effect setting.terms w.catalog visit s result)
      (step : visit.step setting.terms w.catalog = some (s, result))
      (metrics : Metrics) (log : List String) :
      Effect setting w (.client index)
        { w with
          catalog := { s with metrics }
          clients := w.clients.set index (.after setting purpose result), log }
  | work {index : Nat} {attention : World.Attention} {worker worker' : Worker} {s : State}
      (worker? : w.workers[index]? = some worker)
      (effect : Worker.Effect setting.terms w.catalog worker s worker') :
      Effect setting w (.worker index attention)
        { w with catalog := s, workers := w.workers.set index worker' }
  | start (interval : Nat) :
      Effect setting w (.start interval)
        { w with workers := w.workers ++ [.start w.catalog.now interval] }
  | signal (index : Nat) (value : Bool) :
      Effect setting w (.signal index value)
        { w with workers := w.workers.modify index (.send value) }
  | close (index : Nat) :
      Effect setting w (.close index) { w with workers := w.workers.modify index .close }
  | wait (duration : Nat) : Effect setting w (.wait duration) (w.wait duration)

namespace World

variable {setting : Setting} {w next : World}

theorem effect_enter (arrival : Arrival) :
    Effect setting w (.enter arrival) (w.enter setting arrival) := by
  cases arrival with
  | fetch =>
    obtain ⟨metrics, log, h⟩ := settle_eq setting w .fetch (setting.consult .fetch w.catalog)
    have intent : Arrival.purpose? setting w .fetch = some .fetch := rfl
    simp only [enter, consult_eq, h]
    exact .consult intent (opening_consult ..) rfl metrics w.ids log
  | refresh =>
    obtain ⟨metrics, log, h⟩ := settle_eq setting w .refresh (setting.consult .refresh w.catalog)
    have intent : Arrival.purpose? setting w .refresh = some .refresh := rfl
    simp only [enter, consult_eq, h]
    exact .consult intent (opening_consult ..) rfl metrics w.ids log
  | request request =>
    simp only [enter, receive]
    -- either the guard or the route answers, or an order goes to the catalog
    split
    · next response hp =>
      obtain ⟨metrics, h⟩ := send_eq setting { w with ids := w.ids + 1 } request
        (request.id (setting.freshId w.ids)) response
      have intent : Arrival.purpose? setting w (.request request) = none := by
        simp only [Arrival.purpose?, hp]
      simp only [h]
      exact .dispatch intent _ metrics (w.ids + 1)
    · next order hp =>
      obtain ⟨metrics, log, h⟩ := settle_eq setting { w with ids := w.ids + 1 }
        (.serve ⟨request, request.id (setting.freshId w.ids), order⟩)
        (setting.consult (.serve ⟨request, request.id (setting.freshId w.ids), order⟩) w.catalog)
      have intent : Arrival.purpose? setting w (.request request) =
          some (.serve ⟨request, request.id (setting.freshId w.ids), order⟩) := by
        simp only [Arrival.purpose?, hp]
      simp only [consult_eq, h]
      exact .consult intent (opening_consult ..) rfl metrics (w.ids + 1) log

theorem effect_stepClient? {index : Nat} (h : w.stepClient? setting index = some next) :
    Effect setting w (.client index) next := by
  unfold stepClient? at h
  split at h
  · next purpose visit hc =>
    obtain ⟨⟨s, result⟩, hv, hn⟩ := Option.map_eq_some_iff.mp h
    obtain ⟨metrics, log, hs⟩ := settle_eq setting w purpose (s, result)
    simp only [hs] at hn
    rw [← hn]
    exact .visit hc (Catalog.Visit.effect_of_step hv) hv metrics log
  · cases h

theorem effect_stepWorker? {index : Nat} {attention : Attention}
    (h : w.stepWorker? setting index attention = some next) :
    Effect setting w (.worker index attention) next := by
  unfold stepWorker? at h
  obtain ⟨worker, hw, h⟩ := Option.bind_eq_some_iff.mp h
  split at h
  · obtain ⟨⟨s, worker'⟩, hp, rfl⟩ := Option.map_eq_some_iff.mp h
    exact .work hw (Catalog.Worker.effect_of_proceed hp)
  · obtain ⟨worker', ho, rfl⟩ := Option.map_eq_some_iff.mp h
    exact .work hw (Catalog.Worker.effect_of_observe ho)
  · obtain ⟨⟨s, worker'⟩, ht, rfl⟩ := Option.map_eq_some_iff.mp h
    exact .work hw (Catalog.Worker.effect_of_tick ht)

/-- An action does to the service what `World.Effect` says. -/
theorem effect_of_act? {action : Action} (h : w.act? setting action = some next) :
    Effect setting w action next := by
  cases action with
  | enter arrival => obtain rfl := Option.some.inj h; exact effect_enter arrival
  | client index => exact effect_stepClient? h
  | worker index attention => exact effect_stepWorker? h
  | start interval => obtain rfl := Option.some.inj h; exact .start interval
  | signal index value => obtain rfl := Option.some.inj h; exact .signal index value
  | close index => obtain rfl := Option.some.inj h; exact .close index
  | wait duration => obtain rfl := Option.some.inj h; exact .wait duration

end World

/-! ### Runs -/

/-- An action with the states before and after it. -/
structure Move where
  before : World
  action : Action
  after : World

/-- A run from one state to another, the last move at the end. -/
inductive Run (setting : Setting) (w : World) : List Move → World → Prop where
  | refl : Run setting w [] w
  | snoc {moves : List Move} {v next : World} {action : Action} (run : Run setting w moves v)
      (act : v.act? setting action = some next) :
      Run setting w (moves ++ [⟨v, action, next⟩]) next

namespace Run

variable {setting : Setting} {w v next : World} {moves moves' : List Move}

theorem single {action : Action} (act : w.act? setting action = some next) :
    Run setting w [⟨w, action, next⟩] next := snoc refl act

/-- **Runs lead wherever steps lead**, and nowhere else. -/
theorem exists_iff_reaches : (∃ moves, Run setting w moves next) ↔
    Relation.ReflTransGen (World.Step setting) w next := by
  constructor
  · rintro ⟨moves, run⟩
    induction run with
    | refl => exact .refl
    | snoc _ act ih => exact ih.tail (World.step_iff_act?.mpr ⟨_, act⟩)
  · intro reaches
    induction reaches with
    | refl => exact ⟨[], refl⟩
    | tail _ step ih =>
      obtain ⟨moves, run⟩ := ih
      obtain ⟨action, act⟩ := World.step_iff_act?.mp step
      exact ⟨_, snoc run act⟩

theorem append (first : Run setting w moves v) (second : Run setting v moves' next) :
    Run setting w (moves ++ moves') next := by
  -- runs grow at their end, so the induction is on the second one
  induction second with
  | refl => simpa using first
  | snoc run act ih =>
    rw [← List.append_assoc]
    exact snoc ih act

/-- A run of moves one after the other is a run of the first and one of the others. -/
theorem append_iff : Run setting w (moves ++ moves') next ↔
    ∃ v, Run setting w moves v ∧ Run setting v moves' next := by
  constructor
  · intro h
    generalize hms : moves ++ moves' = ms at h
    induction h generalizing moves' with
    | refl =>
      obtain ⟨rfl, rfl⟩ := List.append_eq_nil_iff.mp hms
      exact ⟨w, refl, refl⟩
    | snoc run act ih =>
      -- the last move belongs to the second part, unless that is empty
      rcases List.eq_nil_or_concat moves' with rfl | ⟨init, m, rfl⟩
      · rw [List.append_nil] at hms
        exact ⟨_, hms ▸ snoc run act, refl⟩
      · rw [List.concat_eq_append] at hms ⊢
        rw [← List.append_assoc] at hms
        obtain ⟨hinit, hm⟩ := List.append_inj' hms rfl
        obtain rfl := List.singleton_inj.mp hm
        obtain ⟨v, hv, hv'⟩ := ih hinit
        exact ⟨v, hv, snoc hv' act⟩
  · rintro ⟨v, hv, hv'⟩
    exact append hv hv'

theorem nil_iff : Run setting w [] next ↔ next = w := by
  constructor
  · intro h
    generalize hms : ([] : List Move) = ms at h
    cases h with
    | refl => rfl
    | snoc run act => simp at hms
  · rintro rfl
    exact refl

theorem snoc_iff {m : Move} : Run setting w (moves ++ [m]) next ↔
    Run setting w moves m.before ∧ m.before.act? setting m.action = some m.after ∧
      next = m.after := by
  constructor
  · intro h
    generalize hms : moves ++ [m] = ms at h
    cases h with
    | refl => simp at hms
    | snoc run act =>
      obtain ⟨rfl, hm⟩ := List.append_inj' hms rfl
      obtain rfl := List.singleton_inj.mp hm
      exact ⟨run, act, rfl⟩
  · rintro ⟨run, act, rfl⟩
    exact snoc run act

theorem cons_iff {m : Move} : Run setting w (m :: moves) next ↔
    m.before = w ∧ w.act? setting m.action = some m.after ∧ Run setting m.after moves next := by
  have single_iff : ∀ v, Run setting w [m] v ↔
      m.before = w ∧ w.act? setting m.action = some m.after ∧ v = m.after := by
    intro v
    rw [← List.nil_append [m], snoc_iff, nil_iff]
    constructor
    · rintro ⟨hb, act, hv⟩
      exact ⟨hb, hb ▸ act, hv⟩
    · rintro ⟨hb, act, hv⟩
      exact ⟨hb, hb ▸ act, hv⟩
  rw [← List.singleton_append, append_iff]
  constructor
  · rintro ⟨v, hv, hrun⟩
    obtain ⟨hb, act, rfl⟩ := (single_iff v).mp hv
    exact ⟨hb, act, hrun⟩
  · rintro ⟨hb, act, hrun⟩
    exact ⟨m.after, (single_iff _).mpr ⟨hb, act, rfl⟩, hrun⟩

/-- Each move of a run is a step from a state that the run has reached. -/
theorem of_mem {m : Move} (h : Run setting w moves next) (hm : m ∈ moves) :
    ∃ earlier later, moves = earlier ++ m :: later ∧ Run setting w earlier m.before ∧
      m.before.act? setting m.action = some m.after ∧ Run setting m.after later next := by
  obtain ⟨earlier, later, rfl⟩ := List.append_of_mem hm
  obtain ⟨v, hv, hrest⟩ := append_iff.mp h
  obtain ⟨hb, act, hlater⟩ := cons_iff.mp hrest
  obtain rfl := hb
  exact ⟨earlier, later, rfl, hv, act, hlater⟩

/-- What holds at first and is kept by every action holds after every run. -/
theorem invariant {P : World → Prop} (h : Run setting w moves next) (first : P w)
    (kept : ∀ {w v : World} {action : Action}, P w → World.Effect setting w action v → P v) :
    P next := by
  induction h with
  | refl => exact first
  | snoc run act ih => exact kept ih (World.effect_of_act? act)

end Run

/-! ### The run of a list of actions -/

/-- A service that keeps its catalog, and nothing besides. -/
def Setting.cached (terms : Catalog.Terms) : Setting :=
  ⟨terms, true, false, false, none, Service.routes, fun _ => [], .brief⟩

/-- The moves of a list of actions and the state after them, if nobody who acts has to wait. -/
def World.play? (setting : Setting) : World → List Action → Option (List Move × World)
  | w, [] => some ([], w)
  | w, action :: actions =>
    match w.act? setting action with
    | none => none
    | some v => (v.play? setting actions).map fun (moves, next) => (⟨w, action, v⟩ :: moves, next)

theorem Run.of_play? {setting : Setting} {w next : World} {actions : List Action}
    {moves : List Move} (h : w.play? setting actions = some (moves, next)) :
    Run setting w moves next := by
  induction actions generalizing w moves with
  | nil =>
    simp only [World.play?, Option.some.injEq, Prod.mk.injEq] at h
    obtain ⟨rfl, rfl⟩ := h
    exact .refl
  | cons action actions ih =>
    simp only [World.play?] at h
    split at h
    · cases h
    · next v hv =>
      obtain ⟨⟨rest, last⟩, hr, he⟩ := Option.map_eq_some_iff.mp h
      simp only [Prod.mk.injEq] at he
      obtain ⟨rfl, rfl⟩ := he
      exact Run.cons_iff.mpr ⟨rfl, hv, ih hr⟩

/-- What an evaluated run shows of its moves and of the state after them is true of a run. -/
theorem Run.exists_of_play? {setting : Setting} {w : World} {actions : List Action}
    {p : List Move × World → Bool} (h : (w.play? setting actions).any p = true) :
    ∃ moves next, Run setting w moves next ∧ p (moves, next) = true := by
  obtain ⟨⟨moves, next⟩, hp, holds⟩ := (Option.any_eq_true ..).mp h
  exact ⟨moves, next, of_play? hp, holds⟩

end ProductSegments.Service
