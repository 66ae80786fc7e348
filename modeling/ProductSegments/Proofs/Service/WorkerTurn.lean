import ProductSegments.Proofs.Service.Freshness

/-!
# The turns of a worker

What one worker does, said once for each of its steps, and what everybody else can do to it: send it
a value or take its sender away.  A worker between refreshes looks at its channel or takes its tick,
in whichever order; inside a refresh it does neither.

## Main definitions

* `Catalog.Channel.tells`, `Catalog.Channel.asks` — a look at the channel tells the worker to stop,
  or will do so in the end.
* `Service.World.Turn` — a step of a worker.
* `Service.World.Touch` — what an action does to the worker with an index.
* `Service.Move.Calm` — nobody asks a worker to stop.
* `Service.Tick`, `Service.Move.tick?`, `Service.Move.finish?` — a worker begins and ends a refresh;
  `Service.ticks` and `Service.finishes` are all of these in a run.

## Main results

* `Service.World.touch_of_act?` — an action does nothing else to a worker.
* `Service.Move.call_of_tick?`, `Service.Move.ending_of_finish?` — what the catalog has to do with
  the refreshes of a worker.
* `Service.World.Touch.unasked` — a worker of which nobody asks it stays at work.
* `Service.Run.stays_stopped` — a worker that has stopped takes no step any more.
-/

namespace ProductSegments

open Catalog (State Cycle Worker Channel Activity Ending)

/-- A look at the channel tells the worker to stop: a new value does if it is `true`, and if there
is none, that there is no sender. -/
def Catalog.Channel.tells (c : Channel) : Bool := if c.isFresh then c.value else c.isClosed

/-- A stop request has been made: there is no sender, or `true` has come and not been looked at. -/
def Catalog.Channel.asks (c : Channel) : Bool := c.isClosed || (c.isFresh && c.value)

/-- What a worker is told has been asked of it. -/
theorem Catalog.Channel.asks_of_tells {c : Channel} (h : c.tells = true) : c.asks = true := by
  unfold tells at h
  unfold asks
  cases fresh : c.isFresh with
  | true =>
    rw [fresh, if_pos rfl] at h
    rw [h, Bool.and_self, Bool.or_true]
  | false =>
    rw [fresh, if_neg Bool.false_ne_true] at h
    rw [h, Bool.true_or]

/-- What is asked of a worker that it is not told comes after a value that has been sent before. -/
theorem Catalog.Channel.not_tells_of_asks {c : Channel} (asked : c.asks = true)
    (h : c.tells = false) : c.isFresh = true ∧ c.value = false ∧ c.isClosed = true := by
  unfold asks at asked
  unfold tells at h
  cases fresh : c.isFresh with
  | true =>
    rw [fresh, if_pos rfl] at h
    rw [fresh, h, Bool.and_false, Bool.or_false] at asked
    exact ⟨rfl, h, asked⟩
  | false =>
    rw [fresh, if_neg Bool.false_ne_true] at h
    rw [h, fresh] at asked
    cases asked

namespace Service

/-! ### Steps of a worker -/

/-- A step of a worker that attends to the channel or to the ticks. -/
inductive World.Turn (terms : Catalog.Terms) (s : State) (worker : Worker) :
    World.Attention → State → Worker → Prop where
  /-- The worker takes its tick and begins a refresh. -/
  | tick {due : Nat} (idle : worker.activity = .idle due) (passed : due ≤ s.now) :
      Turn terms s worker .ticks (s.call terms).1 { worker with
        activity := .busy (Worker.nextDue worker.interval due s.now) (.calling 0 (s.call terms).2) }
  | onward {attention : World.Attention} {due : Nat} {cycle next : Cycle} {s' : State}
      (busy : worker.activity = .busy due cycle) (onward : Cycle.Onward terms s cycle s' next) :
      Turn terms s worker attention s' { worker with activity := .busy due next }
  | ended {attention : World.Attention} {due : Nat} {cycle : Cycle} {e : Ending}
      (busy : worker.activity = .busy due cycle) (ending : cycle.ending? terms s = some e) :
      Turn terms s worker attention (s.conclude e.outcome) { worker with activity := .idle due }
  /-- The worker looks at a value that does not tell it to stop. -/
  | look {due : Nat} (idle : worker.activity = .idle due) (fresh : worker.channel.isFresh = true)
      (value : worker.channel.value = false) :
      Turn terms s worker .channel s
        { worker with channel := { worker.channel with isFresh := false } }
  | stop {due : Nat} (idle : worker.activity = .idle due) (told : worker.channel.tells = true) :
      Turn terms s worker .channel s { worker with
        activity := .stopped, channel := { worker.channel with isFresh := false } }

namespace World

variable {setting : Setting} {terms : Catalog.Terms} {w next : World} {s s' : State}
  {worker worker' : Worker} {attention : Attention}

theorem turn_of_proceed (h : worker.proceed terms s = some (s', worker')) :
    Turn terms s worker attention s' worker' := by
  unfold Worker.proceed at h
  split at h
  · next due cycle busy =>
    split at h
    · cases h
    · next step =>
      simp only [Option.some.injEq, Prod.mk.injEq] at h
      obtain ⟨rfl, rfl⟩ := h
      exact .onward busy (Cycle.onward_of_step step)
    · next step =>
      obtain ⟨rfl, call, ending⟩ := Cycle.ending?_of_step step
      simp only [Option.some.injEq, Prod.mk.injEq] at h
      obtain ⟨rfl, rfl⟩ := h
      exact .ended busy ending
  · cases h

theorem turn_of_observe (h : worker.observe = some worker') :
    Turn terms s worker .channel s worker' := by
  unfold Worker.observe at h
  split at h
  · next due idle =>
    cases fresh : worker.channel.isFresh with
    | true =>
      rw [fresh, if_pos rfl] at h
      obtain rfl := Option.some.inj h
      cases value : worker.channel.value with
      | true => exact .stop idle (by rw [Channel.tells, fresh, if_pos rfl, value])
      | false => exact .look idle fresh value
    | false =>
      rw [fresh, if_neg Bool.false_ne_true] at h
      split at h
      · next closed =>
        obtain rfl := Option.some.inj h
        have told : worker.channel.tells = true := by
          rw [Channel.tells, fresh, if_neg Bool.false_ne_true, closed]
        have seen : worker.channel = { worker.channel with isFresh := false } := by
          rw [← fresh]
        have stop : Turn terms s worker .channel s { worker with
            activity := .stopped, channel := { worker.channel with isFresh := false } } :=
          .stop idle told
        rwa [← seen] at stop
      · cases h
  · cases h

theorem turn_of_tick (h : worker.tick terms s = some (s', worker')) :
    Turn terms s worker .ticks s' worker' := by
  unfold Worker.tick at h
  split at h
  · next due idle =>
    split at h
    · next passed =>
      simp only [Option.some.injEq, Prod.mk.injEq] at h
      obtain ⟨rfl, rfl⟩ := h
      exact .tick idle passed
    · cases h
  · cases h

/-- What a worker that attends to the channel or to the ticks makes of the state and of itself,
unless it has to wait. -/
def turn? (terms : Catalog.Terms) (s : State) (worker : Worker) (attention : Attention) :
    Option (State × Worker) :=
  match worker.activity, attention with
  | .busy .., _ => worker.proceed terms s
  | _, .channel => worker.observe.map fun worker => (s, worker)
  | _, .ticks => worker.tick terms s

/-- A step of the service that a worker takes is a turn of it. -/
theorem stepWorker?_eq (setting : Setting) (w : World) (index : Nat) (attention : Attention) :
    w.stepWorker? setting index attention = w.workers[index]?.bind fun worker =>
      (turn? setting.terms w.catalog worker attention).map fun (s, worker) =>
        { w with catalog := s, workers := w.workers.set index worker } := by
  refine congrArg (Option.bind _) (funext fun worker => ?_)
  obtain ⟨interval, activity, channel⟩ := worker
  -- a worker that does not refresh attends to one of the two, and a busy one to neither
  cases activity with
  | busy due cycle => cases attention <;> rfl
  | idle due =>
    cases attention with
    | channel =>
      simp only [turn?, Option.map_map]
      rfl
    | ticks => rfl
  | stopped => cases attention <;> rfl

theorem turn?_idle_channel {due : Nat} (idle : worker.activity = .idle due) :
    turn? terms s worker .channel = worker.observe.map fun worker => (s, worker) := by
  obtain ⟨interval, activity, channel⟩ := worker
  obtain rfl : activity = .idle due := idle
  rfl

theorem turn_of_turn? (h : turn? terms s worker attention = some (s', worker')) :
    Turn terms s worker attention s' worker' := by
  unfold turn? at h
  split at h
  · exact turn_of_proceed h
  · obtain ⟨seen, step, eq⟩ := Option.map_eq_some_iff.mp h
    simp only [Prod.mk.injEq] at eq
    obtain ⟨rfl, rfl⟩ := eq
    exact turn_of_observe step
  · exact turn_of_tick h

theorem turn_of_stepWorker? {index : Nat} (h : w.stepWorker? setting index attention = some next) :
    ∃ worker worker', w.workers[index]? = some worker ∧
      Turn setting.terms w.catalog worker attention next.catalog worker' ∧
      next = { w with catalog := next.catalog, workers := w.workers.set index worker' } := by
  rw [stepWorker?_eq] at h
  obtain ⟨worker, there, h⟩ := Option.bind_eq_some_iff.mp h
  obtain ⟨⟨s, worker'⟩, step, rfl⟩ := Option.map_eq_some_iff.mp h
  exact ⟨worker, worker', there, turn_of_turn? step, rfl⟩

end World

/-! ### What happens to a worker -/

/-- The action is one of the worker with an index, or one that reaches it over its channel. -/
def Action.concerns (index : Nat) : Action → Bool
  | .worker i _ | .signal i _ | .close i => i = index
  | _ => false

/-- How long an action takes. -/
def Action.duration : Action → Nat
  | .wait duration => duration
  | _ => 0

theorem activity_send (value : Bool) (worker : Worker) :
    (worker.send value).activity = worker.activity := by
  unfold Worker.send
  split <;> rfl

/-- What an action does to the worker with an index. -/
inductive World.Touch (setting : Setting) (w : World) (index : Nat) (worker : Worker) :
    Action → World → Worker → Prop where
  | turn {attention : World.Attention} {next : World} {worker' : Worker}
      (turn : World.Turn setting.terms w.catalog worker attention next.catalog worker') :
      Touch setting w index worker (.worker index attention) next worker'
  | sent {next : World} (value : Bool) (same : next.catalog = w.catalog) :
      Touch setting w index worker (.signal index value) next (worker.send value)
  | closed {next : World} (same : next.catalog = w.catalog) :
      Touch setting w index worker (.close index) next worker.close
  | aside {action : Action} {next : World} (aside : action.concerns index = false) :
      Touch setting w index worker action next worker

namespace World

variable {setting : Setting} {w next : World} {action : Action} {index : Nat} {worker : Worker}

theorem workers_of_aside (there : w.workers[index]? = some worker)
    (act : w.act? setting action = some next) (aside : action.concerns index = false) :
    next.workers[index]? = some worker := by
  have bound : index < w.workers.length := (List.getElem?_eq_some_iff.mp there).1
  have effect := effect_of_act? act
  cases effect with
  | consult intent opening begun metrics ids log => exact there
  | dispatch intent reply metrics ids => exact there
  | visit client effect step metrics log => exact there
  | @work i attention other other' s worker? effect =>
    have ne : i ≠ index := of_decide_eq_false aside
    rw [List.getElem?_set_ne ne]
    exact there
  | start interval =>
    rw [List.getElem?_append_left bound]
    exact there
  | signal i value =>
    have ne : i ≠ index := of_decide_eq_false aside
    rw [List.getElem?_modify_ne _ _ ne]
    exact there
  | close i =>
    have ne : i ≠ index := of_decide_eq_false aside
    rw [List.getElem?_modify_ne _ _ ne]
    exact there
  | wait duration => exact there

/-- **What an action does to a worker**: nothing, unless it is the worker's own or reaches it over
its channel. -/
theorem touch_of_act? (there : w.workers[index]? = some worker)
    (act : w.act? setting action = some next) :
    ∃ worker', next.workers[index]? = some worker' ∧
      Touch setting w index worker action next worker' := by
  have bound : index < w.workers.length := (List.getElem?_eq_some_iff.mp there).1
  cases concerned : action.concerns index with
  | false => exact ⟨worker, workers_of_aside there act concerned, .aside concerned⟩
  | true =>
    cases action with
    | worker i attention =>
      obtain rfl : i = index := of_decide_eq_true concerned
      obtain ⟨own, worker', here, turn, eq⟩ := turn_of_stepWorker? act
      obtain rfl := Option.some.inj (here.symm.trans there)
      refine ⟨worker', ?_, .turn turn⟩
      rw [eq, List.getElem?_set_self bound]
    | signal i value =>
      obtain rfl : i = index := of_decide_eq_true concerned
      obtain rfl := Option.some.inj act
      refine ⟨worker.send value, ?_, .sent value rfl⟩
      rw [List.getElem?_modify_eq, there]
      rfl
    | close i =>
      obtain rfl : i = index := of_decide_eq_true concerned
      obtain rfl := Option.some.inj act
      refine ⟨worker.close, ?_, .closed rfl⟩
      rw [List.getElem?_modify_eq, there]
      rfl
    | enter arrival => cases concerned
    | client i => cases concerned
    | start interval => cases concerned
    | wait duration => cases concerned

/-- What an action has done to a worker, seen from the states before and after it. -/
theorem touch_between {worker' : Worker} (there : w.workers[index]? = some worker)
    (act : w.act? setting action = some next) (here : next.workers[index]? = some worker') :
    Touch setting w index worker action next worker' := by
  obtain ⟨own, same, touch⟩ := touch_of_act? there act
  obtain rfl := Option.some.inj (here.symm.trans same)
  exact touch

/-- Nobody else makes a worker do anything. -/
theorem Touch.turn_or_rest {worker' : Worker}
    (touch : Touch setting w index worker action next worker') :
    (∃ attention, action = .worker index attention ∧
      Turn setting.terms w.catalog worker attention next.catalog worker') ∨
    worker'.activity = worker.activity ∧ ∀ attention, action ≠ .worker index attention := by
  cases touch with
  | @turn attention _ _ turn => exact .inl ⟨attention, rfl, turn⟩
  | sent value same => exact .inr ⟨activity_send value worker, fun _ => Action.noConfusion⟩
  | closed same => exact .inr ⟨rfl, fun _ => Action.noConfusion⟩
  | aside aside =>
    refine .inr ⟨rfl, ?_⟩
    rintro attention rfl
    exact absurd rfl (of_decide_eq_false aside)

/-- Only waits take time. -/
theorem Effect.now_eq (effect : Effect setting w action next) :
    next.catalog.now = w.catalog.now + action.duration := by
  cases effect with
  | consult intent opening begun metrics ids log => cases opening <;> rfl
  | dispatch intent reply metrics ids => rfl
  | visit client effect step metrics log => exact effect.now
  | work worker? effect => exact effect.now
  | start interval => rfl
  | signal index value => rfl
  | close index => rfl
  | wait duration => rfl

end World

/-! ### Refreshes of a worker -/

/-- A refresh that a worker begins: when its tick was due and when it was taken. -/
structure Tick where
  due : Nat
  taken : Nat
  deriving DecidableEq

/-- The refresh that a worker has begun at a time when it was doing the one thing before and is
doing the other after. -/
def Tick.between? (now : Nat) : Activity → Activity → Option Tick
  | .idle due, .busy _ _ => some ⟨due, now⟩
  | _, _ => none

/-- When a worker has ended a refresh that was doing the one thing before and is doing the other
after. -/
def finishBetween? (now : Nat) : Activity → Activity → Option Nat
  | .busy _ _, .idle _ => some now
  | _, _ => none

@[simp] theorem Tick.between?_self (now : Nat) (activity : Activity) :
    Tick.between? now activity activity = none := by
  cases activity <;> rfl

@[simp] theorem finishBetween?_self (now : Nat) (activity : Activity) :
    finishBetween? now activity activity = none := by
  cases activity <;> rfl

theorem Tick.between?_eq_some {now : Nat} {activity activity' : Activity} {t : Tick}
    (h : Tick.between? now activity activity' = some t) :
    activity = .idle t.due ∧ t.taken = now ∧ activity' ≠ activity := by
  unfold between? at h
  split at h
  · obtain rfl := Option.some.inj h
    exact ⟨rfl, rfl, Activity.noConfusion⟩
  · cases h

theorem finishBetween?_eq_some {now time : Nat} {activity activity' : Activity}
    (h : finishBetween? now activity activity' = some time) :
    time = now ∧ (∃ due cycle, activity = .busy due cycle) ∧ activity' ≠ activity := by
  unfold finishBetween? at h
  split at h
  · exact ⟨(Option.some.inj h).symm, ⟨_, _, rfl⟩, Activity.noConfusion⟩
  · cases h

/-- The refresh that the worker with an index begins with a move. -/
def Move.tick? (index : Nat) (m : Move) : Option Tick :=
  m.before.workers[index]?.bind fun worker => m.after.workers[index]?.bind fun worker' =>
    Tick.between? m.before.catalog.now worker.activity worker'.activity

/-- When the worker with an index ends a refresh with a move. -/
def Move.finish? (index : Nat) (m : Move) : Option Nat :=
  m.before.workers[index]?.bind fun worker => m.after.workers[index]?.bind fun worker' =>
    finishBetween? m.before.catalog.now worker.activity worker'.activity

/-- The refreshes that a worker has begun, the last one at the end. -/
def ticks (index : Nat) (moves : List Move) : List Tick := moves.filterMap (Move.tick? index)

/-- When a worker has ended its refreshes, the last one at the end. -/
def finishes (index : Nat) (moves : List Move) : List Nat := moves.filterMap (Move.finish? index)

theorem ticks_append (index : Nat) (moves moves' : List Move) :
    ticks index (moves ++ moves') = ticks index moves ++ ticks index moves' :=
  List.filterMap_append

theorem ticks_snoc (index : Nat) (moves : List Move) (m : Move) :
    ticks index (moves ++ [m]) = ticks index moves ++ (m.tick? index).toList := by
  rw [ticks_append]
  cases h : m.tick? index <;> simp [ticks, h]

theorem finishes_snoc (index : Nat) (moves : List Move) (m : Move) :
    finishes index (moves ++ [m]) = finishes index moves ++ (m.finish? index).toList := by
  rw [finishes, List.filterMap_append]
  cases h : m.finish? index <;> simp [finishes, h]

namespace Move

variable {index : Nat} {m : Move} {worker worker' : Worker}

theorem tick?_eq (there : m.before.workers[index]? = some worker)
    (here : m.after.workers[index]? = some worker') :
    m.tick? index = Tick.between? m.before.catalog.now worker.activity worker'.activity := by
  rw [tick?, there, here, Option.bind_some, Option.bind_some]

theorem finish?_eq (there : m.before.workers[index]? = some worker)
    (here : m.after.workers[index]? = some worker') :
    m.finish? index = finishBetween? m.before.catalog.now worker.activity worker'.activity := by
  rw [finish?, there, here, Option.bind_some, Option.bind_some]

variable {setting : Setting}

/-- A worker that begins a refresh has been waiting for its tick. -/
theorem idle_of_tick? {t : Tick} (h : m.tick? index = some t) :
    ∃ worker, m.before.workers[index]? = some worker ∧ worker.activity = .idle t.due := by
  obtain ⟨worker, there, h⟩ := Option.bind_eq_some_iff.mp h
  obtain ⟨worker', -, between⟩ := Option.bind_eq_some_iff.mp h
  exact ⟨worker, there, (Tick.between?_eq_some between).1⟩

/-- **A refresh begins with a call**, when its tick is due. -/
theorem call_of_tick? (act : m.before.act? setting m.action = some m.after) {t : Tick}
    (h : m.tick? index = some t) :
    t.taken = m.before.catalog.now ∧ t.due ≤ t.taken ∧
      m.after.catalog = (m.before.catalog.call setting.terms).1 := by
  obtain ⟨worker, there, h⟩ := Option.bind_eq_some_iff.mp h
  obtain ⟨worker', here, between⟩ := Option.bind_eq_some_iff.mp h
  obtain ⟨idle, taken, other⟩ := Tick.between?_eq_some between
  rcases (World.touch_between there act here).turn_or_rest with ⟨attention, -, turn⟩ | ⟨same, -⟩
  · generalize m.after.catalog = s at turn
    cases turn with
    | tick waits passed =>
      obtain rfl := Activity.idle.inj (idle.symm.trans waits)
      exact ⟨taken, taken ▸ passed, rfl⟩
    | onward busy onward => rw [idle] at busy; cases busy
    | ended busy ending => rw [idle] at busy; cases busy
    | look waits fresh value => exact absurd rfl other
    | stop waits told => rw [idle] at between; cases between
  · exact absurd same other

/-- **A refresh ends with what its last answer makes of the catalog**, whatever that is. -/
theorem ending_of_finish? (act : m.before.act? setting m.action = some m.after) {time : Nat}
    (h : m.finish? index = some time) :
    time = m.before.catalog.now ∧ ∃ e, m.ending? setting = some e ∧
      m.after.catalog = m.before.catalog.conclude e.outcome := by
  obtain ⟨worker, there, h⟩ := Option.bind_eq_some_iff.mp h
  obtain ⟨worker', here, between⟩ := Option.bind_eq_some_iff.mp h
  obtain ⟨now, ⟨due, cycle, under⟩, other⟩ := finishBetween?_eq_some between
  rcases (World.touch_between there act here).turn_or_rest with ⟨attention, own, turn⟩ | ⟨same, -⟩
  · generalize m.after.catalog = s at turn ⊢
    cases turn with
    | tick idle passed => rw [under] at idle; cases idle
    | onward busy onward => rw [under] at between; cases between
    | @ended _ _ _ e busy ending =>
      refine ⟨now, e, ?_, rfl⟩
      rw [ending?, own, World.ending?_worker there, Worker.cycle?, busy]
      exact ending
    | look idle fresh value => rw [under] at idle; cases idle
    | stop idle told => rw [under] at idle; cases idle
  · exact absurd same other

end Move

/-! ### Requests to stop -/

/-- The move does not ask the worker with an index to stop. -/
def Move.Calm (index : Nat) (m : Move) : Prop :=
  m.action ≠ .signal index true ∧ m.action ≠ .close index

instance (index : Nat) (m : Move) : Decidable (m.Calm index) :=
  inferInstanceAs (Decidable (_ ∧ _))

theorem isRunning_of_activity_eq {worker worker' : Worker}
    (same : worker'.activity = worker.activity) : worker'.isRunning = worker.isRunning := by
  rw [Worker.isRunning, same, Worker.isRunning]

theorem isRunning_of_idle {worker : Worker} {due : Nat} (idle : worker.activity = .idle due) :
    worker.isRunning = true := by
  rw [Worker.isRunning, idle]
  rfl

theorem isRunning_of_busy {worker : Worker} {due : Nat} {cycle : Cycle}
    (busy : worker.activity = .busy due cycle) : worker.isRunning = true := by
  rw [Worker.isRunning, busy]
  rfl

/-- A worker that takes a step has not stopped. -/
theorem World.Turn.isRunning {terms : Catalog.Terms} {s s' : State} {worker worker' : Worker}
    {attention : World.Attention} (h : World.Turn terms s worker attention s' worker') :
    worker.isRunning = true := by
  cases h with
  | tick idle passed => exact isRunning_of_idle idle
  | onward busy onward => exact isRunning_of_busy busy
  | ended busy ending => exact isRunning_of_busy busy
  | look idle fresh value => exact isRunning_of_idle idle
  | stop idle told => exact isRunning_of_idle idle

/-- **A worker of which nobody asks it stays at work**, whatever its refreshes come to. -/
theorem World.Touch.unasked {setting : Setting} {w next : World} {index : Nat} {action : Action}
    {worker worker' : Worker} (touch : World.Touch setting w index worker action next worker')
    (running : worker.isRunning = true) (unasked : worker.channel.asks = false)
    (calm : (Move.mk w action next).Calm index) :
    worker'.isRunning = true ∧ worker'.channel.asks = false := by
  have before := unasked
  rw [Channel.asks, Bool.or_eq_false_iff] at before
  cases touch with
  | turn turn =>
    generalize next.catalog = s at turn
    cases turn with
    | tick idle passed => exact ⟨rfl, unasked⟩
    | onward busy onward => exact ⟨rfl, unasked⟩
    | ended busy ending => exact ⟨rfl, unasked⟩
    | look idle fresh value =>
      refine ⟨running, ?_⟩
      rw [Channel.asks, Bool.or_eq_false_iff]
      exact ⟨before.1, rfl⟩
    | stop idle told =>
      have asked := Channel.asks_of_tells told
      rw [unasked] at asked
      cases asked
  | sent value same =>
    cases value with
    | true => exact absurd rfl calm.1
    | false =>
      refine ⟨(isRunning_of_activity_eq (activity_send false worker)).trans running, ?_⟩
      rw [Worker.send, if_pos running, Channel.asks, before.1]
      rfl
  | closed same => exact absurd rfl calm.2
  | aside aside => exact ⟨running, unasked⟩

namespace Run

variable {setting : Setting} {v w : World} {moves : List Move} {index : Nat} {worker : Worker}

/-- **A worker that has stopped takes no step any more**, and stays as it is but for its channel. -/
theorem stays_stopped (h : Run setting v moves w) (there : v.workers[index]? = some worker)
    (stopped : worker.isRunning = false) :
    (∃ worker', w.workers[index]? = some worker' ∧ worker'.isRunning = false) ∧
      ∀ m ∈ moves, ∀ attention, m.action ≠ .worker index attention := by
  induction h with
  | refl => exact ⟨⟨worker, there, stopped⟩, fun m hm => absurd hm List.not_mem_nil⟩
  | @snoc moves v' next action run act ih =>
    obtain ⟨⟨own, here, still⟩, silent⟩ := ih
    obtain ⟨worker', after, touch⟩ := World.touch_of_act? here act
    rcases touch.turn_or_rest with ⟨attention, -, turn⟩ | ⟨same, other⟩
    · rw [turn.isRunning] at still
      cases still
    · refine ⟨⟨worker', after, (isRunning_of_activity_eq same).trans still⟩, ?_⟩
      rw [List.forall_mem_append, List.forall_mem_singleton]
      exact ⟨silent, other⟩

/-- A worker that runs at the end of a run has been running all the time. -/
theorem isRunning_of_isRunning (h : Run setting v moves w) (there : v.workers[index]? = some worker)
    {worker' : Worker} (here : w.workers[index]? = some worker')
    (running : worker'.isRunning = true) : worker.isRunning = true := by
  cases stopped : worker.isRunning with
  | true => rfl
  | false =>
    obtain ⟨⟨other, same, still⟩, -⟩ := h.stays_stopped there stopped
    obtain rfl := Option.some.inj (here.symm.trans same)
    rw [running] at still
    cases still

/-- A worker that is there stays there. -/
theorem exists_worker (h : Run setting v moves w) (there : v.workers[index]? = some worker) :
    ∃ worker', w.workers[index]? = some worker' := by
  induction h with
  | refl => exact ⟨worker, there⟩
  | snoc run act ih =>
    obtain ⟨own, here⟩ := ih
    obtain ⟨worker', after, -⟩ := World.touch_of_act? here act
    exact ⟨worker', after⟩

end Run

end Service

end ProductSegments
