import ProductSegments.Proofs.Service.WorkerTurn

/-!
# A worker that is sent nothing

What is sent to a worker tells it to stop, or nothing at all.  As long as the worker runs, the
service goes through the same states as one in which nothing is sent to that worker, its channel
aside: nothing that is sent begins a refresh, puts one off or cuts one short.

## Main definitions

* `Service.World.manned` — a state with other workers.
* `Service.World.mute` — a state with another channel of one worker.
* `Service.Move.isMessage` — something is sent to a worker, or the worker looks at its channel.

## Main results

* `Service.World.act?_mute` — everything else does the same, whatever the channel.
* `Service.Run.mute` — what a run does without these moves.
-/

namespace ProductSegments.Service

open Catalog (State Visit Worker Channel Outcome)

/-! ### Other workers -/

/-- The state with other workers. -/
def World.manned (w : World) (workers : List Worker) : World := { w with workers }

/-- A state with other workers, and somebody in it. -/
def mannedPair {α : Type} (workers : List Worker) (pair : World × α) : World × α :=
  (pair.1.manned workers, pair.2)

namespace World

variable (setting : Setting) (w : World) (workers : List Worker)

theorem send_manned (request : Web.Request) (id : List Char) (response : Web.Response) :
    (w.manned workers).send setting request id response =
      mannedPair workers (w.send setting request id response) := by
  unfold send
  cases setting.isLayered <;> rfl

theorem recordEvaluation_manned (products : List Product) (rules : List String) :
    (w.manned workers).recordEvaluation setting products rules =
      (w.recordEvaluation setting products rules).manned workers := by
  unfold recordEvaluation
  cases products.isEmpty <;> rfl

theorem answer_manned (purpose : Purpose) (outcome : Outcome) :
    (w.manned workers).answer setting purpose outcome =
      mannedPair workers (w.answer setting purpose outcome) := by
  cases purpose with
  | fetch => rfl
  | refresh => rfl
  | serve exchange =>
    simp only [answer]
    rw [← send_manned]
    cases exchange.order with
    | list => rfl
    | refresh => rfl
    | evaluate rules =>
      cases outcome with
      | error failure => rfl
      | ok products => simp only [recordEvaluation_manned]

theorem settle_manned (purpose : Purpose) (result : State × (Visit ⊕ Outcome)) :
    (w.manned workers).settle setting purpose result =
      mannedPair workers (w.settle setting purpose result) := by
  obtain ⟨s, visit | outcome⟩ := result
  · rfl
  · have answered := answer_manned setting { w with catalog := s } workers purpose outcome
    have state : ({ w.manned workers with catalog := s } : World) =
        ({ w with catalog := s } : World).manned workers := rfl
    simp only [settle, state, answered]
    rfl

theorem receive_manned (request : Web.Request) :
    (w.manned workers).receive setting request =
      mannedPair workers (w.receive setting request) := by
  have counted : ({ w.manned workers with ids := w.ids + 1 } : World) =
      ({ w with ids := w.ids + 1 } : World).manned workers := rfl
  have ids : (w.manned workers).ids = w.ids := rfl
  simp only [receive, ids, counted]
  split
  · next response plan =>
    simp only [send_manned]
    rfl
  · next order plan => exact settle_manned setting _ workers _ _

/-- Whoever comes in has nothing to do with the workers. -/
theorem enter_manned (arrival : Arrival) :
    (w.manned workers).enter setting arrival = (w.enter setting arrival).manned workers := by
  have join : ∀ p q : World × Client, q = mannedPair workers p →
      ({ q.1 with clients := q.1.clients ++ [q.2] } : World) =
        ({ p.1 with clients := p.1.clients ++ [p.2] } : World).manned workers := by
    rintro p q rfl
    rfl
  cases arrival with
  | fetch => exact join _ _ (settle_manned setting w workers _ _)
  | refresh => exact join _ _ (settle_manned setting w workers _ _)
  | request request => exact join _ _ (receive_manned setting w workers request)

/-- Nor has a client that goes on. -/
theorem stepClient?_manned (index : Nat) :
    (w.manned workers).stepClient? setting index =
      (w.stepClient? setting index).map (·.manned workers) := by
  have same : (w.manned workers).clients = w.clients ∧ (w.manned workers).catalog = w.catalog :=
    ⟨rfl, rfl⟩
  simp only [stepClient?, same]
  split
  · rw [Option.map_map]
    refine congrArg (Option.map · _) (funext fun result => ?_)
    simp only [settle_manned]
    rfl
  · rfl

theorem workers_enter (arrival : Arrival) : (w.enter setting arrival).workers = w.workers := by
  have same : w.enter setting arrival = (w.enter setting arrival).manned w.workers :=
    enter_manned setting w w.workers arrival
  rw [same]
  rfl

theorem workers_stepClient? {index : Nat} {next : World}
    (h : w.stepClient? setting index = some next) : next.workers = w.workers := by
  have same : w.stepClient? setting index =
      (w.stepClient? setting index).map (·.manned w.workers) :=
    stepClient?_manned setting w w.workers index
  rw [h, Option.map_some] at same
  rw [Option.some.inj same]
  rfl

end World

/-! ### Another channel -/

section Lists

variable {α : Type} (f : α → α) (l : List α)

theorem set_modify_self (i : Nat) (a : α) :
    (l.modify i f).set i (f a) = (l.set i a).modify i f := by
  induction l generalizing i with
  | nil => rw [List.modify_nil, List.set_nil, List.set_nil, List.modify_nil]
  | cons b l ih =>
    cases i with
    | zero => rfl
    | succ i => exact congrArg (b :: ·) (ih i)

theorem set_modify_of_eq {i : Nat} {a a' : α} (h : l[i]? = some a) (same : f a' = f a) :
    (l.set i a').modify i f = l.modify i f := by
  induction l generalizing i with
  | nil => cases h
  | cons b l ih =>
    cases i with
    | zero =>
      obtain rfl := Option.some.inj h
      exact congrArg (· :: l) same
    | succ i => exact congrArg (b :: ·) (ih h)

theorem modify_eq_self {i : Nat} {a : α} (h : l[i]? = some a) (same : f a = a) :
    l.modify i f = l := by
  induction l generalizing i with
  | nil => cases h
  | cons b l ih =>
    cases i with
    | zero =>
      obtain rfl := Option.some.inj h
      exact congrArg (· :: l) same
    | succ i => exact congrArg (b :: ·) (ih h)

theorem set_modify_of_ne {i j : Nat} (h : i ≠ j) (a : α) :
    (l.modify i f).set j a = (l.set j a).modify i f := by
  induction l generalizing i j with
  | nil => rw [List.modify_nil, List.set_nil, List.modify_nil]
  | cons b l ih =>
    cases i with
    | zero =>
      cases j with
      | zero => exact absurd rfl h
      | succ j => rfl
    | succ i =>
      cases j with
      | zero => rfl
      | succ j => exact congrArg (b :: ·) (ih fun eq => h (congrArg (· + 1) eq))

theorem modify_append_of_lt {i : Nat} (h : i < l.length) (l' : List α) :
    (l ++ l').modify i f = l.modify i f ++ l' := by
  induction l generalizing i with
  | nil => cases h
  | cons b l ih =>
    cases i with
    | zero => rfl
    | succ i => exact congrArg (b :: ·) (ih (Nat.lt_of_succ_lt_succ h))

end Lists

/-- The worker with another channel. -/
def tuned (channel : Channel) (worker : Worker) : Worker := { worker with channel }

/-- The state in which the worker with an index has another channel. -/
def World.mute (index : Nat) (channel : Channel) (w : World) : World :=
  w.manned (w.workers.modify index (tuned channel))

/-- Something is sent to the worker with an index, or it looks at its channel. -/
def Move.isMessage (index : Nat) (m : Move) : Bool :=
  match m.action with
  | .signal i _ | .close i => i = index
  | .worker i .channel =>
    i = index && m.before.workers[index]?.any fun worker => worker.cycle?.isNone
  | _ => false

/-- The move with another channel of the worker with an index. -/
def Move.mute (index : Nat) (channel : Channel) (m : Move) : Move :=
  ⟨m.before.mute index channel, m.action, m.after.mute index channel⟩

/-- The moves without the messages to the worker with an index, and with another channel of it. -/
def muted (index : Nat) (channel : Channel) (moves : List Move) : List Move :=
  (moves.filter fun m => !m.isMessage index).map (Move.mute index channel)

theorem muted_snoc (index : Nat) (channel : Channel) (moves : List Move) (m : Move) :
    muted index channel (moves ++ [m]) =
      muted index channel moves ++ if m.isMessage index then [] else [m.mute index channel] := by
  rw [muted, List.filter_append, List.map_append, muted]
  cases h : m.isMessage index <;> simp [h]

theorem World.getElem?_mute {w : World} {index : Nat} {worker : Worker}
    (there : w.workers[index]? = some worker) (channel : Channel) :
    (w.mute index channel).workers[index]? = some (tuned channel worker) := by
  show (w.workers.modify index (tuned channel))[index]? = _
  rw [List.getElem?_modify_eq, there]
  rfl

theorem World.mute_eq_self {w : World} {index : Nat} {worker : Worker}
    (there : w.workers[index]? = some worker) : w.mute index worker.channel = w :=
  congrArg w.manned (modify_eq_self (tuned worker.channel) w.workers there rfl)

theorem tuned_send (channel : Channel) (value : Bool) (worker : Worker) :
    tuned channel (worker.send value) = tuned channel worker := by
  unfold Worker.send
  split <;> rfl

theorem tuned_close (channel : Channel) (worker : Worker) :
    tuned channel worker.close = tuned channel worker := rfl

/-- A worker does not mind its channel but when it looks at it between refreshes. -/
theorem World.turn?_tuned {terms : Catalog.Terms} {s : State} {worker : Worker}
    {attention : World.Attention} (channel : Channel)
    (h : attention = .channel → worker.cycle?.isNone = false) :
    World.turn? terms s (tuned channel worker) attention =
      (World.turn? terms s worker attention).map fun (s, worker) => (s, tuned channel worker) := by
  obtain ⟨interval, activity, own⟩ := worker
  cases activity with
  | busy due cycle =>
    simp only [World.turn?, tuned, Worker.proceed]
    rcases cycle.step terms s with _ | ⟨s', next | outcome⟩ <;> rfl
  | idle due =>
    cases attention with
    | channel => exact Bool.noConfusion (h rfl)
    | ticks =>
      simp only [World.turn?, tuned, Worker.tick]
      split <;> rfl
  | stopped =>
    cases attention with
    | channel => exact Bool.noConfusion (h rfl)
    | ticks => rfl

namespace World

variable {setting : Setting} {w next : World} {action : Action} {index : Nat} {worker : Worker}

/-- **Everything but messages does the same**, whatever the channel. -/
theorem act?_mute (there : w.workers[index]? = some worker) (channel : Channel)
    (act : w.act? setting action = some next)
    (plain : (Move.mk w action next).isMessage index = false) :
    (w.mute index channel).act? setting action = some (next.mute index channel) := by
  have bound : index < w.workers.length := (List.getElem?_eq_some_iff.mp there).1
  cases action with
  | enter arrival =>
    obtain rfl := Option.some.inj act
    refine congrArg some ?_
    rw [mute, enter_manned, mute, workers_enter]
  | client i =>
    have step : w.stepClient? setting i = some next := act
    show (w.mute index channel).stepClient? setting i = _
    rw [mute, stepClient?_manned, step, mute, workers_stepClient? setting w step]
    rfl
  | worker i attention =>
    have step : w.stepWorker? setting i attention = some next := act
    show (w.mute index channel).stepWorker? setting i attention = _
    rw [stepWorker?_eq] at step ⊢
    obtain ⟨own, here, step⟩ := Option.bind_eq_some_iff.mp step
    obtain ⟨⟨s, own'⟩, turn, rfl⟩ := Option.map_eq_some_iff.mp step
    show ((w.workers.modify index (tuned channel))[i]?.bind _) = _
    by_cases same : i = index
    · subst same
      have busy : attention = .channel → own.cycle?.isNone = false := by
        rintro rfl
        simpa [Move.isMessage, here] using plain
      rw [List.getElem?_modify_eq, here]
      show (turn? setting.terms w.catalog (tuned channel own) attention).map _ = _
      rw [turn?_tuned channel busy, turn]
      refine congrArg some ?_
      show World.mk _ _ ((w.workers.modify i (tuned channel)).set i (tuned channel own')) _ _ = _
      rw [set_modify_self]
      rfl
    · have ne : index ≠ i := fun eq => same eq.symm
      rw [List.getElem?_modify_ne _ _ ne, here]
      show (turn? setting.terms w.catalog own attention).map _ = _
      rw [turn]
      refine congrArg some ?_
      show World.mk _ _ ((w.workers.modify index (tuned channel)).set i own') _ _ = _
      rw [set_modify_of_ne _ _ ne]
      rfl
  | start interval =>
    obtain rfl := Option.some.inj act
    refine congrArg some ?_
    unfold mute
    rw [modify_append_of_lt _ _ bound]
    rfl
  | signal i value =>
    obtain rfl := Option.some.inj act
    have ne : i ≠ index := of_decide_eq_false plain
    refine congrArg some ?_
    unfold mute
    rw [List.modify_modify_ne _ _ _ ne]
    rfl
  | close i =>
    obtain rfl := Option.some.inj act
    have ne : i ≠ index := of_decide_eq_false plain
    refine congrArg some ?_
    unfold mute
    rw [List.modify_modify_ne _ _ _ ne]
    rfl
  | wait duration =>
    obtain rfl := Option.some.inj act
    rfl

/-- **A message changes nothing but the channel**, as long as the worker runs. -/
theorem mute_of_message {worker' : Worker} (there : w.workers[index]? = some worker)
    (channel : Channel) (act : w.act? setting action = some next)
    (message : (Move.mk w action next).isMessage index = true)
    (here : next.workers[index]? = some worker') (running : worker'.isRunning = true) :
    next.mute index channel = w.mute index channel ∧ next.catalog = w.catalog ∧
      worker'.activity = worker.activity := by
  have bound : index < w.workers.length := (List.getElem?_eq_some_iff.mp there).1
  -- what is sent changes the worker by a function that does not survive another channel
  have modified : ∀ f : Worker → Worker, (∀ own, tuned channel (f own) = tuned channel own) →
      (w.workers.modify index f).modify index (tuned channel) =
        w.workers.modify index (tuned channel) := by
    intro f same
    rw [List.modify_modify_eq]
    exact congrArg _ (funext same)
  cases action with
  | enter arrival => cases message
  | client i => cases message
  | start interval => cases message
  | wait duration => cases message
  | signal i value =>
    obtain rfl : i = index := of_decide_eq_true message
    obtain rfl := Option.some.inj act
    have sent : worker' = worker.send value := by
      rw [List.getElem?_modify_eq, there] at here
      exact (Option.some.inj here).symm
    refine ⟨?_, rfl, ?_⟩
    · unfold mute
      rw [modified _ fun own => tuned_send channel value own]
      rfl
    · rw [sent, activity_send]
  | close i =>
    obtain rfl : i = index := of_decide_eq_true message
    obtain rfl := Option.some.inj act
    have closed : worker' = worker.close := by
      rw [List.getElem?_modify_eq, there] at here
      exact (Option.some.inj here).symm
    refine ⟨?_, rfl, ?_⟩
    · unfold mute
      rw [modified _ fun own => tuned_close channel own]
      rfl
    · rw [closed]
      rfl
  | worker i attention =>
    obtain ⟨own, own', own?, turn, eq⟩ := turn_of_stepWorker? act
    cases attention with
    | ticks => cases message
    | channel =>
      rw [Move.isMessage, Bool.and_eq_true] at message
      obtain ⟨same, free⟩ := message
      obtain rfl : i = index := of_decide_eq_true same
      obtain rfl := Option.some.inj (own?.symm.trans there)
      rw [there, Option.any_some] at free
      have after : worker' = own' := by
        rw [eq, List.getElem?_set_self bound] at here
        exact (Option.some.inj here).symm
      subst after
      generalize hs : next.catalog = s at turn eq
      cases turn with
      | onward busy onward =>
        rw [Worker.cycle?, busy] at free
        cases free
      | ended busy ending =>
        rw [Worker.cycle?, busy] at free
        cases free
      | look idle fresh value =>
        refine ⟨?_, rfl, rfl⟩
        rw [eq]
        exact congrArg w.manned (set_modify_of_eq (tuned channel) w.workers there rfl)
      | stop idle told => cases running

end World

namespace Run

variable {setting : Setting} {v w : World} {moves : List Move} {index : Nat}
  {worker worker' : Worker}

/-- **Nothing that is sent to a worker matters as long as the worker runs.**  Without these messages
a run leads to the same state, and the worker begins and ends its refreshes at the same times. -/
theorem mute (h : Run setting v moves w) (there : v.workers[index]? = some worker)
    (here : w.workers[index]? = some worker') (running : worker'.isRunning = true)
    (channel : Channel) :
    Run setting (v.mute index channel) (muted index channel moves) (w.mute index channel) ∧
      ticks index (muted index channel moves) = ticks index moves ∧
      finishes index (muted index channel moves) = finishes index moves := by
  induction h generalizing worker' with
  | refl => exact ⟨.refl, rfl, rfl⟩
  | @snoc moves v' next action run act ih =>
    obtain ⟨own, before⟩ := run.exists_worker there
    have single : Run setting v' [⟨v', action, next⟩] next := Run.single act
    have ran : own.isRunning = true := single.isRunning_of_isRunning before here running
    obtain ⟨quiet, began, ended⟩ := ih before ran
    rw [muted_snoc, ticks_snoc, finishes_snoc, Move.tick?_eq before here,
      Move.finish?_eq before here]
    cases message : (Move.mk v' action next).isMessage index with
    | true =>
      obtain ⟨same, -, activity⟩ := World.mute_of_message before channel act message here running
      rw [activity, if_pos rfl, same, Tick.between?_self, finishBetween?_self]
      simpa using ⟨quiet, began, ended⟩
    | false =>
      -- the same move is made with the other channel
      rw [if_neg Bool.false_ne_true, ticks_snoc, finishes_snoc, began, ended,
        Move.tick?_eq (World.getElem?_mute before channel) (World.getElem?_mute here channel),
        Move.finish?_eq (World.getElem?_mute before channel) (World.getElem?_mute here channel)]
      exact ⟨.snoc quiet (World.act?_mute before channel act message), rfl, rfl⟩

end Run

end ProductSegments.Service
