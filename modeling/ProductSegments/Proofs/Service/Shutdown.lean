import Mathlib.Logic.Relation
import ProductSegments.Proofs.Service.Muted
import ProductSegments.Proofs.Service.WorkerProgress

/-!
# How a worker stops

A worker stops when it looks at its channel and is told to, and for no other reason.  It looks at
the channel only between refreshes, so that a refresh under way is brought to its end first; and if
it finds its next tick due as well when it is back from a refresh, it may take that before it looks.

## Main definitions

* `Catalog.Cycle.Leads` — a refresh goes on to be another one.
* `Service.Move.Stops` — a worker looks at its channel and is told to stop.
* `Service.Move.Attentive` — no time passes in which a worker could have looked at its channel.
* `Service.Move.Completes` — a refresh comes to the end that the policy gives it.

## Main results

* `Service.Run.exists_stops` — a worker that has stopped has been told to.
* `Service.Run.completes` — a refresh is brought to its end, unless it is still under way.
* `Service.Run.taken_eq` — after a request to stop, ticks are taken when a refresh has ended.
* `Service.Run.stops_at_once` — between refreshes there is none any more.
* `Service.Run.shutdown` — all of this together.
-/

namespace ProductSegments

open Catalog (State Worker Activity Channel Cycle Ending Failure)

/-- A refresh goes on, in whatever states of the catalog, to be another one. -/
def Catalog.Cycle.Leads (terms : Catalog.Terms) : Cycle → Cycle → Prop :=
  Relation.ReflTransGen fun cycle next => ∃ s s', Cycle.Onward terms s cycle s' next

namespace Service

variable {setting : Setting} {v w next : World} {moves : List Move} {index : Nat} {action : Action}
  {worker worker' : Worker}

/-! ### Why a worker stops -/

/-- The worker with an index looks at its channel between refreshes and is told to stop. -/
def Move.Stops (index : Nat) (m : Move) : Prop :=
  m.action = .worker index .channel ∧ m.after.catalog = m.before.catalog ∧
    ∃ worker due, m.before.workers[index]? = some worker ∧ worker.activity = .idle due ∧
      worker.channel.tells = true

/-- A worker that an action makes stop is told to. -/
theorem World.Touch.stops (touch : World.Touch setting w index worker action next worker')
    (there : w.workers[index]? = some worker) (running : worker.isRunning = true)
    (stopped : worker'.isRunning = false) : (Move.mk w action next).Stops index := by
  have stays : worker'.activity = worker.activity → (Move.mk w action next).Stops index := by
    intro same
    rw [isRunning_of_activity_eq same, running] at stopped
    cases stopped
  rcases touch.turn_or_rest with ⟨attention, rfl, turn⟩ | ⟨same, -⟩
  · generalize hs : next.catalog = s at turn
    cases turn with
    | tick idle passed => cases stopped
    | onward busy onward => cases stopped
    | ended busy ending => cases stopped
    | look idle fresh value => exact stays rfl
    | @stop due idle told => exact ⟨rfl, hs, worker, due, there, idle, told⟩
  · exact stays same

namespace Run

/-- **A worker that has stopped has been told to** by its channel. -/
theorem exists_stops (h : Run setting v moves w) (there : v.workers[index]? = some worker)
    (here : w.workers[index]? = some worker') (running : worker.isRunning = true)
    (stopped : worker'.isRunning = false) : ∃ m ∈ moves, m.Stops index := by
  induction h generalizing worker' with
  | refl =>
    obtain rfl := Option.some.inj (there.symm.trans here)
    rw [running] at stopped
    cases stopped
  | @snoc moves v' next action run act ih =>
    obtain ⟨own, before⟩ := run.exists_worker there
    have touch := World.touch_between before act here
    cases ran : own.isRunning with
    | true =>
      exact ⟨_, List.mem_append_right _ List.mem_cons_self, touch.stops before ran stopped⟩
    | false =>
      obtain ⟨m, hm, stops⟩ := ih before ran
      exact ⟨m, List.mem_append_left _ hm, stops⟩

/-- A worker of which nobody asks it does not stop. -/
theorem isRunning_of_calm (h : Run setting v moves w) (there : v.workers[index]? = some worker)
    (here : w.workers[index]? = some worker') (running : worker.isRunning = true)
    (unasked : worker.channel.asks = false) (calm : ∀ m ∈ moves, m.Calm index) :
    worker'.isRunning = true ∧ worker'.channel.asks = false := by
  induction h generalizing worker' with
  | refl =>
    obtain rfl := Option.some.inj (there.symm.trans here)
    exact ⟨running, unasked⟩
  | @snoc moves v' next action run act ih =>
    obtain ⟨calm, last⟩ := List.forall_mem_append.mp calm
    obtain ⟨own, before⟩ := run.exists_worker there
    have touch := World.touch_between before act here
    obtain ⟨ran, none⟩ := ih before calm
    exact touch.unasked ran none (last _ List.mem_cons_self)

end Run

/-! ### A refresh under way -/

/-- The refresh of the worker with an index comes with a move to the end that the policy gives it:
its last answer is not asked for again, and the catalog takes it in. -/
structure Move.Completes (setting : Setting) (index due : Nat) (cycle : Cycle) (m : Move)
    (e : Ending) : Prop where
  ends : m.ending? setting = some e
  stored : m.after.catalog = m.before.catalog.conclude e.outcome
  idle : ∃ worker, m.after.workers[index]? = some worker ∧ worker.activity = .idle due
  last : ∃ attempt, cycle.Leads setting.terms (.calling attempt e.call) ∧
    setting.terms.policy.wait? Failure.isRetryable attempt e.outcome = none

/-- **A refresh is brought to its end**, unless it is still under way. -/
theorem Run.completes (h : Run setting v moves w) (there : v.workers[index]? = some worker)
    (here : w.workers[index]? = some worker') {due : Nat} {cycle : Cycle}
    (busy : worker.activity = .busy due cycle) :
    (∃ cycle', worker'.activity = .busy due cycle' ∧ cycle.Leads setting.terms cycle') ∨
    ∃ before m after e, moves = before ++ m :: after ∧ m.Completes setting index due cycle e := by
  induction h generalizing worker' with
  | refl =>
    obtain rfl := Option.some.inj (there.symm.trans here)
    exact .inl ⟨cycle, busy, .refl⟩
  | @snoc moves v' next action run act ih =>
    obtain ⟨own, before⟩ := run.exists_worker there
    have touch := World.touch_between before act here
    rcases ih before with ⟨current, under, leads⟩ | ⟨earlier, m, later, e, rfl, completes⟩
    · -- the refresh is under way, and only the worker itself can end it
      rcases touch.turn_or_rest with ⟨attention, rfl, turn⟩ | ⟨same, -⟩
      · generalize hs : next.catalog = s at turn
        cases turn with
        | tick idle passed => rw [under] at idle; cases idle
        | onward still onward =>
          obtain ⟨rfl, rfl⟩ := Activity.busy.inj (under.symm.trans still)
          exact .inl ⟨_, rfl, leads.tail ⟨_, _, onward⟩⟩
        | @ended _ _ _ e still ending =>
          obtain ⟨rfl, rfl⟩ := Activity.busy.inj (under.symm.trans still)
          obtain ⟨attempt, rfl, -, -, final⟩ := Cycle.ending?_eq_some_iff.mp ending
          refine .inr ⟨moves, _, [], e, rfl, ?_, hs, ⟨_, here, rfl⟩, attempt, leads, final⟩
          show v'.ending? setting (.worker index attention) = some e
          rw [World.ending?_worker before, Worker.cycle?, under]
          exact ending
        | look idle fresh value => rw [under] at idle; cases idle
        | stop idle told => rw [under] at idle; cases idle
      · exact .inl ⟨current, same.trans under, leads⟩
    · refine .inr ⟨earlier, m, later ++ [⟨v', action, next⟩], e, ?_, completes⟩
      rw [List.append_assoc, List.cons_append]

/-! ### After a request to stop -/

/-- No time passes in which the worker with an index could have looked at its channel. -/
def Move.Attentive (index : Nat) (m : Move) : Prop :=
  ∀ worker ∈ m.before.workers[index]?, worker.observe.isSome →
    m.after.catalog.now = m.before.catalog.now

instance (index : Nat) (m : Move) : Decidable (m.Attentive index) :=
  inferInstanceAs (Decidable (∀ worker ∈ m.before.workers[index]?, _))

/-- A worker between refreshes that has been asked to stop finds something on its channel. -/
theorem isSome_observe {due : Nat} (idle : worker.activity = .idle due)
    (asked : worker.channel.asks = true) : worker.observe.isSome = true := by
  obtain ⟨interval, activity, ⟨value, fresh, closed⟩⟩ := worker
  obtain rfl : activity = .idle due := idle
  cases fresh with
  | true => rfl
  | false =>
    obtain rfl : closed = true := by simpa [Channel.asks] using asked
    rfl

/-- A sender that is gone does not come back. -/
theorem World.Touch.isClosed (touch : World.Touch setting w index worker action next worker')
    (closed : worker.channel.isClosed = true) : worker'.channel.isClosed = true := by
  cases touch with
  | turn turn =>
    generalize next.catalog = s at turn
    cases turn <;> exact closed
  | sent value same =>
    unfold Worker.send
    split <;> exact closed
  | closed same => rfl
  | aside aside => exact closed

/-- A request to stop stays, unless it is withdrawn or the worker has stopped. -/
theorem World.Touch.asks (touch : World.Touch setting w index worker action next worker')
    (asked : worker.channel.asks = true)
    (kept : worker.channel.isClosed = true ∨ action ≠ .signal index false)
    (running : worker'.isRunning = true) : worker'.channel.asks = true := by
  cases touch with
  | turn turn =>
    generalize next.catalog = s at turn
    cases turn with
    | tick idle passed => exact asked
    | onward busy onward => exact asked
    | ended busy ending => exact asked
    | look idle fresh value =>
      -- the value is no request, so that the request is the missing sender
      rw [Channel.asks, value, Bool.and_false, Bool.or_false] at asked
      rw [Channel.asks, asked, Bool.true_or]
    | stop idle told => cases running
  | sent value same =>
    rw [isRunning_of_activity_eq (activity_send value worker)] at running
    rw [Worker.send, if_pos running, Channel.asks]
    cases value with
    | true => exact Bool.or_true _
    | false =>
      obtain closed | other := kept
      · rw [closed, Bool.true_or]
      · exact absurd rfl other
  | closed same => exact Bool.true_or _
  | aside aside => exact asked

/-- Since when a worker has been free: its last refresh has ended then, if it has made one. -/
def freeSince (index start : Nat) (moves : List Move) : Nat :=
  (finishes index moves).getLast?.getD start

theorem freeSince_snoc (index start : Nat) (moves : List Move) (m : Move) :
    freeSince index start (moves ++ [m]) =
      (m.finish? index).getD (freeSince index start moves) := by
  rw [freeSince, finishes_snoc]
  cases m.finish? index with
  | none => rw [Option.toList_none, List.append_nil, Option.getD_none, freeSince]
  | some time =>
    rw [Option.toList_some, List.getLast?_append, List.getLast?_singleton]
    rfl

namespace Run

/-- A request to stop stays, unless it is withdrawn or the worker has stopped. -/
theorem asks (h : Run setting v moves w) (there : v.workers[index]? = some worker)
    (here : w.workers[index]? = some worker') (asked : worker.channel.asks = true)
    (kept : worker.channel.isClosed = true ∨ ∀ m ∈ moves, m.action ≠ .signal index false) :
    (worker.channel.isClosed = true → worker'.channel.isClosed = true) ∧
      (worker'.isRunning = true → worker'.channel.asks = true) := by
  induction h generalizing worker' with
  | refl =>
    obtain rfl := Option.some.inj (there.symm.trans here)
    exact ⟨id, fun _ => asked⟩
  | @snoc moves v' next action run act ih =>
    rw [List.forall_mem_append, List.forall_mem_singleton] at kept
    obtain ⟨own, before⟩ := run.exists_worker there
    have touch := World.touch_between before act here
    obtain ⟨closed, pending⟩ := ih before (kept.imp_right And.left)
    refine ⟨fun h => touch.isClosed (closed h), ?_⟩
    intro running
    have ran : own.isRunning = true := (Run.single act).isRunning_of_isRunning before here running
    exact touch.asks (pending ran) (kept.imp closed And.right) running

/-- After a request to stop, no time passes as long as the worker is between refreshes. -/
theorem still (h : Run setting v moves w) (there : v.workers[index]? = some worker)
    (here : w.workers[index]? = some worker') (asked : worker.channel.asks = true)
    (kept : worker.channel.isClosed = true ∨ ∀ m ∈ moves, m.action ≠ .signal index false)
    {due : Nat} (idle : worker'.activity = .idle due)
    (attentive : (Move.mk w action next).Attentive index) : next.catalog.now = w.catalog.now := by
  have pending := (h.asks there here asked kept).2 (isRunning_of_idle idle)
  exact attentive worker' here (isSome_observe idle pending)

/-- After a request to stop, a worker between refreshes has only just come to be so. -/
theorem now_eq_freeSince (h : Run setting v moves w) (there : v.workers[index]? = some worker)
    (here : w.workers[index]? = some worker') (asked : worker.channel.asks = true)
    (kept : worker.channel.isClosed = true ∨ ∀ m ∈ moves, m.action ≠ .signal index false)
    (attentive : ∀ m ∈ moves, m.Attentive index) {due : Nat}
    (idle : worker'.activity = .idle due) :
    w.catalog.now = freeSince index v.catalog.now moves := by
  induction h generalizing worker' due with
  | refl => rfl
  | @snoc moves v' next action run act ih =>
    rw [List.forall_mem_append, List.forall_mem_singleton] at kept attentive
    obtain ⟨own, before⟩ := run.exists_worker there
    have touch := World.touch_between before act here
    rw [freeSince_snoc, Move.finish?_eq before here]
    -- either it has been so before, or a refresh has ended
    have rests : worker'.activity = own.activity → next.catalog.now =
        (finishBetween? v'.catalog.now own.activity worker'.activity).getD
          (freeSince index v.catalog.now moves) := by
      intro activity
      rw [activity] at idle
      have earlier := kept.imp_right And.left
      rw [activity, finishBetween?_self, Option.getD_none,
        run.still there before asked earlier idle attentive.2]
      exact ih before earlier attentive.1 idle
    rcases touch.turn_or_rest with ⟨attention, rfl, turn⟩ | ⟨same, -⟩
    · have now : next.catalog.now = v'.catalog.now := (World.effect_of_act? act).now_eq
      rw [now] at rests ⊢
      generalize next.catalog = s at turn
      cases turn with
      | tick free passed => cases idle
      | onward busy onward => cases idle
      | ended busy ending =>
        rw [busy]
        rfl
      | look free fresh value => exact rests rfl
      | stop free told => cases idle
    · exact rests same

/-- **After a request to stop, a refresh begins only when another one has ended**, or at once. -/
theorem taken_eq {before after : List Move} {m : Move} (h : Run setting v (before ++ m :: after) w)
    (there : v.workers[index]? = some worker) (asked : worker.channel.asks = true)
    (kept : worker.channel.isClosed = true ∨
      ∀ x ∈ before ++ m :: after, x.action ≠ .signal index false)
    (attentive : ∀ x ∈ before ++ m :: after, x.Attentive index) {t : Tick}
    (begins : m.tick? index = some t) :
    t.taken = freeSince index v.catalog.now before := by
  obtain ⟨v', run, rest⟩ := Run.append_iff.mp h
  obtain ⟨rfl, act, -⟩ := Run.cons_iff.mp rest
  obtain ⟨taken, -⟩ := Move.call_of_tick? act begins
  obtain ⟨own, here, idle⟩ := Move.idle_of_tick? begins
  rw [taken]
  refine run.now_eq_freeSince there here asked ?_ ?_ idle
  · exact kept.imp_right fun kept => (List.forall_mem_append.mp kept).1
  · exact (List.forall_mem_append.mp attentive).1

/-- **A worker that waits for its next tick begins no refresh after a request to stop**, and has
stopped by the time the tick is due. -/
theorem stops_at_once (h : Run setting v moves w) (there : v.workers[index]? = some worker)
    (here : w.workers[index]? = some worker') (asked : worker.channel.asks = true)
    (kept : worker.channel.isClosed = true ∨ ∀ m ∈ moves, m.action ≠ .signal index false)
    (attentive : ∀ m ∈ moves, m.Attentive index) {due : Nat}
    (idle : worker.activity = .idle due) (early : v.catalog.now < due) :
    (∀ m ∈ moves, ∀ attention, m.action = .worker index attention →
        m.after.catalog = m.before.catalog) ∧
      ticks index moves = [] ∧
      (worker'.isRunning = false ∨ worker'.activity = .idle due ∧
        w.catalog.now = v.catalog.now) := by
  induction h generalizing worker' with
  | refl =>
    obtain rfl := Option.some.inj (there.symm.trans here)
    exact ⟨fun m hm => absurd hm List.not_mem_nil, rfl, .inr ⟨idle, rfl⟩⟩
  | @snoc moves v' next action run act ih =>
    rw [List.forall_mem_append, List.forall_mem_singleton] at kept attentive
    obtain ⟨own, before⟩ := run.exists_worker there
    have touch := World.touch_between before act here
    obtain ⟨silent, none, state⟩ := ih before (kept.imp_right And.left) attentive.1
    rw [List.forall_mem_append, List.forall_mem_singleton, ticks_snoc, Move.tick?_eq before here,
      none, List.nil_append]
    -- no time passes unless the worker has stopped
    have rests : worker'.activity = own.activity →
        (Tick.between? v'.catalog.now own.activity worker'.activity).toList = [] ∧
          (worker'.isRunning = false ∨ worker'.activity = .idle due ∧
            next.catalog.now = v.catalog.now) := by
      intro activity
      rw [activity, Tick.between?_self, isRunning_of_activity_eq activity]
      refine ⟨rfl, state.imp_right ?_⟩
      rintro ⟨free, now⟩
      have earlier := kept.imp_right And.left
      exact ⟨free, (run.still there before asked earlier free attentive.2).trans now⟩
    rcases touch.turn_or_rest with ⟨attention, rfl, turn⟩ | ⟨same, other⟩
    · rcases state with stopped | ⟨free, now⟩
      · rw [turn.isRunning] at stopped
        cases stopped
      · generalize next.catalog = s at turn rests ⊢
        cases turn with
        | tick waits passed =>
          obtain rfl := Activity.idle.inj (free.symm.trans waits)
          omega
        | onward busy onward => rw [free] at busy; cases busy
        | ended busy ending => rw [free] at busy; cases busy
        | look waits fresh value => exact ⟨⟨silent, fun _ _ => rfl⟩, rests rfl⟩
        | stop waits told =>
          refine ⟨⟨silent, fun _ _ => rfl⟩, ?_, .inl rfl⟩
          rw [free]
          rfl
    · exact ⟨⟨silent, fun attention own => absurd own (other attention)⟩, rests same⟩

end Run

/-! ### A worker can stop -/

theorem observe_of_tells {due : Nat} (idle : worker.activity = .idle due)
    (told : worker.channel.tells = true) : worker.observe = some { worker with
      activity := .stopped, channel := { worker.channel with isFresh := false } } := by
  obtain ⟨interval, activity, ⟨value, fresh, closed⟩⟩ := worker
  obtain rfl : activity = .idle due := idle
  cases fresh with
  | true =>
    obtain rfl : value = true := told
    rfl
  | false =>
    obtain rfl : closed = true := told
    rfl

theorem observe_of_fresh {due : Nat} (idle : worker.activity = .idle due)
    (fresh : worker.channel.isFresh = true) (value : worker.channel.value = false) :
    worker.observe = some { worker with channel := { worker.channel with isFresh := false } } := by
  rw [Worker.observe, idle]
  dsimp only
  rw [if_pos fresh, value, if_neg Bool.false_ne_true]

namespace World

/-- A worker between refreshes can look at its channel when there is something new, and begins no
refresh with that. -/
theorem exists_look (setting : Setting) (there : w.workers[index]? = some worker) {due : Nat}
    (idle : worker.activity = .idle due) (look : worker.observe = some worker') :
    ∃ m next, Run setting w [m] next ∧ m.action = .worker index .channel ∧
      next.catalog = w.catalog ∧ next.workers[index]? = some worker' ∧ m.tick? index = none := by
  have here : (w.workers.set index worker')[index]? = some worker' :=
    List.getElem?_set_self (List.getElem?_eq_some_iff.mp there).1
  have act : w.act? setting (.worker index .channel) =
      some { w with workers := w.workers.set index worker' } := by
    show w.stepWorker? setting index .channel = _
    rw [stepWorker?_eq, there, Option.bind_some, turn?_idle_channel idle, look]
    rfl
  refine ⟨_, _, .single act, rfl, rfl, here, ?_⟩
  rw [Move.tick?_eq there here, idle]
  obtain ⟨s, turn⟩ : ∃ s, Turn setting.terms w.catalog worker .channel s worker' :=
    ⟨_, turn_of_observe look⟩
  cases turn with
  | onward busy onward => rw [idle] at busy; cases busy
  | ended busy ending => rw [idle] at busy; cases busy
  | look free fresh value => rw [idle]; rfl
  | stop free told => rfl

/-- **A worker between refreshes that has been asked to stop can do so at once.** -/
theorem exists_stop (setting : Setting) (there : w.workers[index]? = some worker) {due : Nat}
    (idle : worker.activity = .idle due) (asked : worker.channel.asks = true) :
    ∃ moves next worker', Run setting w moves next ∧
      (∀ m ∈ moves, m.action = .worker index .channel) ∧ next.catalog = w.catalog ∧
      next.workers[index]? = some worker' ∧ worker'.isRunning = false ∧ ticks index moves = [] := by
  -- one look is enough if it tells the worker to stop
  have once : ∀ {w : World} {worker : Worker}, w.workers[index]? = some worker →
      worker.activity = .idle due → worker.channel.tells = true →
      ∃ moves next worker', Run setting w moves next ∧
        (∀ m ∈ moves, m.action = .worker index .channel) ∧ next.catalog = w.catalog ∧
        next.workers[index]? = some worker' ∧ worker'.isRunning = false ∧
        ticks index moves = [] := by
    intro w worker there idle told
    obtain ⟨m, next, run, look, same, here, none⟩ :=
      exists_look setting there idle (observe_of_tells idle told)
    refine ⟨[m], next, _, run, List.forall_mem_singleton.mpr look, same, here, rfl, ?_⟩
    exact List.filterMap_cons_none none
  cases told : worker.channel.tells with
  | true => exact once there idle told
  | false =>
    -- the worker looks at a value that is no request, and then finds that there is no sender
    obtain ⟨fresh, value, closed⟩ := Channel.not_tells_of_asks asked told
    obtain ⟨m, v, run, look, same, here, none⟩ :=
      exists_look setting there idle (observe_of_fresh idle fresh value)
    obtain ⟨moves, next, worker', run', looks, same', here', stopped, none'⟩ :=
      once here idle closed
    refine ⟨m :: moves, next, worker', run.append run', ?_, same'.trans same, here', stopped, ?_⟩
    · exact List.forall_mem_cons.mpr ⟨look, looks⟩
    · exact (List.filterMap_cons_none none).trans none'

/-- **A worker that has been asked to stop can end its refresh and then do so.** -/
theorem exists_shutdown (setting : Setting) (there : w.workers[index]? = some worker)
    (running : worker.isRunning = true) (asked : worker.channel.asks = true) :
    ∃ moves next worker', Run setting w moves next ∧
      (∀ m ∈ moves, m.action = .worker index .channel ∨ m.Diligent index) ∧
      next.workers[index]? = some worker' ∧ worker'.isRunning = false ∧ ticks index moves = [] ∧
      ∀ due, worker.activity = .idle due → next.catalog = w.catalog := by
  obtain ⟨interval, activity, channel⟩ := worker
  cases activity with
  | idle due =>
    obtain ⟨moves, next, worker', run, looks, same, here, stopped, none⟩ :=
      exists_stop setting there rfl asked
    refine ⟨moves, next, worker', run, ?_, here, stopped, none, fun _ _ => same⟩
    exact fun m hm => .inl (looks m hm)
  | busy due cycle =>
    obtain ⟨moves, v, own, run, diligent, here, rfl, none, -⟩ := exists_end setting there rfl
    obtain ⟨moves', next, worker', run', looks, -, here', stopped, none'⟩ :=
      exists_stop setting here rfl asked
    refine ⟨moves ++ moves', next, worker', run.append run', ?_, here', stopped, ?_, ?_⟩
    · refine List.forall_mem_append.mpr ⟨fun m hm => .inr (diligent m hm), ?_⟩
      exact fun m hm => .inl (looks m hm)
    · rw [ticks_append, none, none', List.nil_append]
    · exact fun _ => Activity.noConfusion
  | stopped => cases running

end World

namespace Run

/-- **How a worker stops.**  It does so between refreshes when it looks at its channel and is told
to, and then for good.  A refresh under way is brought to its end first, and the next one begins
before the worker looks only if its tick is due by then. -/
theorem shutdown (h : Run setting v moves w) (there : v.workers[index]? = some worker)
    (here : w.workers[index]? = some worker') :
    -- a worker stops because it is told to, and for no other reason
    (worker.isRunning = true → worker'.isRunning = false → ∃ m ∈ moves, m.Stops index) ∧
    (worker.isRunning = true → worker.channel.asks = false → (∀ m ∈ moves, m.Calm index) →
      worker'.isRunning = true) ∧
    -- a refresh under way is brought to its end, and nothing that is sent makes a difference to it
    (∀ due cycle, worker.activity = .busy due cycle →
      (∃ cycle', worker'.activity = .busy due cycle' ∧ cycle.Leads setting.terms cycle') ∨
      ∃ before m after e, moves = before ++ m :: after ∧ m.Completes setting index due cycle e) ∧
    (worker'.isRunning = true →
      Run setting (v.mute index .new) (muted index .new moves) (w.mute index .new) ∧
      ticks index (muted index .new moves) = ticks index moves ∧
      finishes index (muted index .new moves) = finishes index moves) ∧
    -- a refresh begins only if its tick is due, and after a request that is not withdrawn only at the
    -- moment when the one before has ended; if the worker waits for a tick that is not due yet, none
    -- begins
    (∀ m ∈ moves, ∀ t, m.tick? index = some t →
      t.due ≤ t.taken ∧ t.taken = m.before.catalog.now) ∧
    (worker.channel.asks = true →
      (worker.channel.isClosed = true ∨ ∀ m ∈ moves, m.action ≠ .signal index false) →
      (∀ m ∈ moves, m.Attentive index) →
      (∀ before m after t, moves = before ++ m :: after → m.tick? index = some t →
        t.taken = freeSince index v.catalog.now before) ∧
      ∀ due, worker.activity = .idle due → v.catalog.now < due →
        (∀ m ∈ moves, ∀ attention, m.action = .worker index attention →
          m.after.catalog = m.before.catalog) ∧
        (v.catalog.now < w.catalog.now → worker'.isRunning = false)) ∧
    -- a worker that is asked to stop can do so, and at once if it is between refreshes
    (worker'.isRunning = true → worker'.channel.asks = true →
      ∃ later next final, Run setting w later next ∧
        (∀ m ∈ later, m.action = .worker index .channel ∨ m.Diligent index) ∧
        next.workers[index]? = some final ∧ final.isRunning = false ∧ ticks index later = [] ∧
        ∀ due, worker'.activity = .idle due → next.catalog = w.catalog) ∧
    -- a worker that has stopped does nothing any more
    (worker.isRunning = false → worker'.isRunning = false ∧
      ∀ m ∈ moves, ∀ attention, m.action ≠ .worker index attention) := by
  refine ⟨h.exists_stops there here, ?_, ?_, ?_, ?_, ?_, ?_, ?_⟩
  · intro running unasked calm
    exact (h.isRunning_of_calm there here running unasked calm).1
  · intro due cycle busy
    exact h.completes there here busy
  · intro running
    exact h.mute there here running .new
  · intro m hm t begins
    obtain ⟨-, -, -, -, act, -⟩ := h.of_mem hm
    obtain ⟨taken, due, -⟩ := Move.call_of_tick? act begins
    exact ⟨due, taken⟩
  · intro asked kept attentive
    constructor
    · rintro before m after t rfl begins
      exact h.taken_eq there asked kept attentive begins
    · intro due idle early
      obtain ⟨silent, -, state⟩ := h.stops_at_once there here asked kept attentive idle early
      refine ⟨silent, fun late => ?_⟩
      rcases state with stopped | ⟨-, now⟩
      · exact stopped
      · omega
  · intro running asked
    exact World.exists_shutdown setting here running asked
  · intro stopped
    obtain ⟨⟨own, same, still⟩, silent⟩ := h.stays_stopped there stopped
    obtain rfl := Option.some.inj (here.symm.trans same)
    exact ⟨still, silent⟩

end Run

/-- A supplier that is in trouble once. -/
def recovering : Catalog.Supplier := .ofList [⟨.error (.status 500), 5⟩, ⟨.ok [], 5⟩]

/-- A worker in its first call of a refresh has been asked to stop. -/
def interrupted : World :=
  { World.initial with
    catalog := { State.initial with now := 3, calls := [0] }
    workers := [⟨2000, .busy 2000 (.calling 0 ⟨0, 0, 5⟩), ⟨true, true, false⟩⟩] }

/-- The call fails after the request, is repeated all the same, and the products are stored before
the worker stops. -/
theorem Run.shutdown_interrupted : ∃ moves w,
    Run (.cached ⟨recovering, .standard⟩) interrupted moves w ∧
    w.catalog.calls = [505, 0] ∧ w.catalog.snapshot = some [] ∧ w.catalog.now = 510 ∧
    (∃ m ∈ moves, m.Stops 0) ∧
    ∃ before m after e, moves = before ++ m :: after ∧
      m.Completes (.cached ⟨recovering, .standard⟩) 0 2000 (.calling 0 ⟨0, 0, 5⟩) e := by
  have evaluated : (interrupted.play? (.cached ⟨recovering, .standard⟩)
      [.wait 2, .worker 0 .ticks, .wait 500, .worker 0 .ticks, .wait 5, .worker 0 .ticks,
        .worker 0 .channel]).any
      (fun result => decide (result.2.catalog.calls = [505, 0] ∧
        result.2.catalog.snapshot = some [] ∧ result.2.catalog.now = 510 ∧
        result.2.workers[0]?.map (·.activity) = some .stopped)) = true := by
    decide +kernel
  obtain ⟨moves, w, run, shown⟩ := Run.exists_of_play? evaluated
  obtain ⟨calls, snapshot, now, activity⟩ := of_decide_eq_true shown
  obtain ⟨worker', here, activity⟩ := Option.map_eq_some_iff.mp activity
  have stopped : worker'.isRunning = false := by
    rw [Worker.isRunning, activity]
    rfl
  have there : interrupted.workers[0]? =
      some ⟨2000, .busy 2000 (.calling 0 ⟨0, 0, 5⟩), ⟨true, true, false⟩⟩ := rfl
  obtain ⟨told, -, completes, -⟩ := run.shutdown there here
  refine ⟨moves, w, run, calls, snapshot, now, told rfl stopped, ?_⟩
  rcases completes _ _ rfl with ⟨cycle, busy, -⟩ | completed
  · rw [activity] at busy
    cases busy
  · exact completed

end Service

end ProductSegments
