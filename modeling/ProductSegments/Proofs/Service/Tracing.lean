import ProductSegments.Proofs.Segment.Selection
import ProductSegments.Proofs.Service.Run

/-!
# Tracing

Whether the evaluation of rules is traced shows in the log and nowhere else.  A service that traces
and one that does not go through the same states, their logs aside, as long as the same happens to
them.

## Main definitions

* `Service.Setting.tracing` — the same setting with tracing on or off.
* `Service.World.Alike` — two states differ in their logs at most.

## Main results

* `Service.World.Alike.act?` — the same action leads from such states to such states.
* `Service.Run.tracing` — so does the same run, and everybody is answered the same.
-/

namespace ProductSegments.Service

open Catalog (State Visit Outcome)

/-- The same setting with tracing on or off. -/
def Setting.tracing (setting : Setting) (traced : Bool) : Setting :=
  { setting with isTraced := traced }

/-- Two states differ in their logs at most. -/
def World.Alike (w v : World) : Prop := ∃ log, v = { w with log }

theorem World.alike_refl (w : World) : w.Alike w := ⟨w.log, rfl⟩

/-- The response to an order does not depend on tracing. -/
theorem Order.response_traced (order : Order) (traced traced' : Bool) (outcome : Outcome) :
    order.response traced outcome = order.response traced' outcome := by
  cases order with
  | evaluate rules =>
    cases outcome with
    | error failure => rfl
    | ok products =>
      rw [response, response, evaluated, evaluated, Segment.products_report,
        Segment.products_report]
  | list => cases outcome <;> rfl
  | refresh => cases outcome <;> rfl

namespace World

variable {w v : World}

theorem Alike.send (alike : w.Alike v) (setting : Setting) (traced : Bool) (request : Web.Request)
    (id : List Char) (response : Web.Response) :
    (w.send setting request id response).1.Alike
        (v.send (setting.tracing traced) request id response).1 ∧
      (v.send (setting.tracing traced) request id response).2 =
        (w.send setting request id response).2 := by
  obtain ⟨log, rfl⟩ := alike
  unfold World.send
  cases layered : setting.isLayered with
  | true => exact ⟨⟨log, by simp [Setting.tracing, layered]⟩, by simp [Setting.tracing, layered]⟩
  | false => exact ⟨⟨log, by simp [Setting.tracing, layered]⟩, by simp [Setting.tracing, layered]⟩

/-- What is counted does not depend on tracing. -/
theorem Alike.recordEvaluation (alike : w.Alike v) (setting : Setting) (traced : Bool)
    (products : List Product) (rules : List String) :
    (w.recordEvaluation setting products rules).Alike
      (v.recordEvaluation (setting.tracing traced) products rules) := by
  obtain ⟨log, rfl⟩ := alike
  unfold World.recordEvaluation
  split
  · exact ⟨log, rfl⟩
  · dsimp only
    rw [Segment.matched_report (setting.tracing traced).isTraced setting.isTraced]
    exact ⟨_, rfl⟩

theorem Alike.answer (alike : w.Alike v) (setting : Setting) (traced : Bool) (purpose : Purpose)
    (outcome : Outcome) :
    (w.answer setting purpose outcome).1.Alike
        (v.answer (setting.tracing traced) purpose outcome).1 ∧
      (v.answer (setting.tracing traced) purpose outcome).2 =
        (w.answer setting purpose outcome).2 := by
  cases purpose with
  | fetch => exact ⟨alike, rfl⟩
  | refresh => exact ⟨alike, rfl⟩
  | serve exchange =>
    obtain ⟨request, id, order⟩ := exchange
    unfold World.answer
    dsimp only
    rw [order.response_traced (setting.tracing traced).isTraced setting.isTraced]
    refine Alike.send ?_ setting traced request id _
    split
    · exact alike.recordEvaluation setting traced _ _
    · exact alike

theorem Alike.settle (alike : w.Alike v) (setting : Setting) (traced : Bool) (purpose : Purpose)
    (result : State × (Visit ⊕ Outcome)) :
    (w.settle setting purpose result).1.Alike
        (v.settle (setting.tracing traced) purpose result).1 ∧
      (v.settle (setting.tracing traced) purpose result).2 =
        (w.settle setting purpose result).2 := by
  obtain ⟨log, rfl⟩ := alike
  obtain ⟨s, visit | outcome⟩ := result
  · exact ⟨⟨log, rfl⟩, rfl⟩
  · have alike : ({ w with catalog := s } : World).Alike { w with catalog := s, log } := ⟨log, rfl⟩
    obtain ⟨states, replies⟩ := alike.answer setting traced purpose outcome
    exact ⟨states, congrArg Client.answered replies⟩

theorem Alike.consult (alike : w.Alike v) (setting : Setting) (traced : Bool) (purpose : Purpose) :
    (w.consult setting purpose).1.Alike (v.consult (setting.tracing traced) purpose).1 ∧
      (v.consult (setting.tracing traced) purpose).2 = (w.consult setting purpose).2 := by
  have visit : setting.consult purpose w.catalog =
      (setting.tracing traced).consult purpose v.catalog := by
    obtain ⟨log, rfl⟩ := alike
    rfl
  rw [consult_eq, consult_eq, ← visit]
  exact alike.settle setting traced purpose _

theorem Alike.receive (alike : w.Alike v) (setting : Setting) (traced : Bool) (r : Web.Request) :
    (w.receive setting r).1.Alike (v.receive (setting.tracing traced) r).1 ∧
      (v.receive (setting.tracing traced) r).2 = (w.receive setting r).2 := by
  obtain ⟨log, rfl⟩ := alike
  have alike : ({ w with ids := w.ids + 1 } : World).Alike { w with ids := w.ids + 1, log } :=
    ⟨log, rfl⟩
  have plans : (setting.tracing traced).plan (r.id ((setting.tracing traced).freshId w.ids)) r =
      setting.plan (r.id (setting.freshId w.ids)) r := rfl
  simp only [World.receive, plans]
  split
  · next response hp =>
    obtain ⟨states, replies⟩ := alike.send setting traced r (r.id (setting.freshId w.ids)) response
    exact ⟨states, congrArg Client.answered replies⟩
  · exact alike.consult setting traced _

/-- Whoever comes in is dealt with in the same way. -/
theorem Alike.enter (alike : w.Alike v) (setting : Setting) (traced : Bool) (arrival : Arrival) :
    (w.enter setting arrival).Alike (v.enter (setting.tracing traced) arrival) := by
  have join : ∀ p q : World × Client, p.1.Alike q.1 ∧ q.2 = p.2 →
      World.Alike { p.1 with clients := p.1.clients ++ [p.2] }
        { q.1 with clients := q.1.clients ++ [q.2] } := by
    rintro p q ⟨⟨log, states⟩, clients⟩
    rw [states, clients]
    exact ⟨log, rfl⟩
  cases arrival with
  | fetch => exact join _ _ (alike.consult setting traced .fetch)
  | refresh => exact join _ _ (alike.consult setting traced .refresh)
  | request r => exact join _ _ (alike.receive setting traced r)

/-- The client with an index goes on in the same way. -/
theorem Alike.stepClient? (alike : w.Alike v) (setting : Setting) (traced : Bool) {index : Nat}
    {next : World} (step : w.stepClient? setting index = some next) :
    ∃ next', v.stepClient? (setting.tracing traced) index = some next' ∧ next.Alike next' := by
  have same : v.clients = w.clients ∧ v.catalog = w.catalog := by
    obtain ⟨log, rfl⟩ := alike
    exact ⟨rfl, rfl⟩
  have terms : (setting.tracing traced).terms = setting.terms := rfl
  simp only [World.stepClient?, same, terms] at step ⊢
  split at step
  · next purpose visit client =>
    obtain ⟨result, went, rfl⟩ := Option.map_eq_some_iff.mp step
    obtain ⟨states, clients⟩ := alike.settle setting traced purpose result
    refine ⟨_, by rw [went, Option.map_some], ?_⟩
    obtain ⟨log, hl⟩ := states
    rw [hl, clients]
    exact ⟨log, rfl⟩
  · cases step

/-- Workers do not touch the log. -/
theorem stepWorker?_tracing (setting : Setting) (traced : Bool) (w : World) (log : List String)
    (index : Nat) (attention : Attention) :
    ({ w with log } : World).stepWorker? (setting.tracing traced) index attention =
      (w.stepWorker? setting index attention).map fun next => { next with log } := by
  have terms : (setting.tracing traced).terms = setting.terms := rfl
  simp only [stepWorker?, terms]
  cases w.workers[index]? with
  | none => rfl
  | some worker =>
    simp only [Option.bind_some]
    split <;> simp only [Option.map_map] <;> rfl

/-- **The same action leads to the same states**, their logs aside. -/
theorem Alike.act? (alike : w.Alike v) (setting : Setting) (traced : Bool) {action : Action}
    {next : World} (act : w.act? setting action = some next) :
    ∃ next', v.act? (setting.tracing traced) action = some next' ∧ next.Alike next' := by
  cases action with
  | enter arrival =>
    obtain rfl := Option.some.inj act
    exact ⟨_, rfl, alike.enter setting traced arrival⟩
  | client index => exact alike.stepClient? setting traced act
  | worker index attention =>
    obtain ⟨log, rfl⟩ := alike
    have step : w.stepWorker? setting index attention = some next := act
    refine ⟨{ next with log }, ?_, ⟨log, rfl⟩⟩
    exact (stepWorker?_tracing setting traced w log index attention).trans (by rw [step]; rfl)
  | start interval =>
    obtain ⟨log, rfl⟩ := alike
    obtain rfl := Option.some.inj act
    exact ⟨_, rfl, ⟨log, rfl⟩⟩
  | signal index value =>
    obtain ⟨log, rfl⟩ := alike
    obtain rfl := Option.some.inj act
    exact ⟨_, rfl, ⟨log, rfl⟩⟩
  | close index =>
    obtain ⟨log, rfl⟩ := alike
    obtain rfl := Option.some.inj act
    exact ⟨_, rfl, ⟨log, rfl⟩⟩
  | wait duration =>
    obtain ⟨log, rfl⟩ := alike
    obtain rfl := Option.some.inj act
    exact ⟨_, rfl, ⟨log, rfl⟩⟩

end World

/-- **A service that traces does the same as one that does not**, in whatever run, and gives
everybody the same answers. -/
theorem Run.tracing {setting : Setting} {w v next : World} {moves : List Move}
    (h : Run setting w moves next) (alike : w.Alike v) (traced : Bool) :
    ∃ moves' next', Run (setting.tracing traced) v moves' next' ∧
      moves'.map (·.action) = moves.map (·.action) ∧ next.Alike next' := by
  induction h with
  | refl => exact ⟨[], v, .refl, rfl, alike⟩
  | @snoc moves u next action run act ih =>
    obtain ⟨moves', u', run', same, alike'⟩ := ih
    obtain ⟨next', act', alike''⟩ := alike'.act? setting traced act
    refine ⟨moves' ++ [⟨u', action, next'⟩], next', .snoc run' act', ?_, alike''⟩
    rw [List.map_append, List.map_append, same]
    rfl

end ProductSegments.Service
