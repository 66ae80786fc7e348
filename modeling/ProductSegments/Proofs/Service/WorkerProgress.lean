import ProductSegments.Proofs.Service.Progress
import ProductSegments.Proofs.Service.WorkerTurn

/-!
# A worker goes on

Whatever the supplier answers and however long that takes, a worker at work can go on after some
time, comes to the end of its refresh and begins another one.

## Main definitions

* `Service.Move.Punctual` — no time passes in which a worker could have gone on.
* `Service.Move.Diligent` — a worker goes on, or the time passes that it has to wait.

## Main results

* `Service.World.exists_advance` — a worker at work goes on after some time.
* `Service.World.exists_end` — a refresh can be brought to its end.
* `Service.World.exists_ticks` — a worker at work can begin any number of refreshes.
-/

namespace ProductSegments.Service

open Catalog (State Worker Cycle)

/-- No time passes in which the worker with an index could have gone on. -/
def Move.Punctual (index : Nat) (m : Move) : Prop :=
  ∀ due ∈ m.before.workers[index]?.bind Worker.due?,
    m.after.catalog.now ≤ max m.before.catalog.now due

instance (index : Nat) (m : Move) : Decidable (m.Punctual index) :=
  inferInstanceAs (Decidable (∀ due ∈ m.before.workers[index]?.bind Worker.due?,
    m.after.catalog.now ≤ max m.before.catalog.now due))

theorem Move.punctual_iff {index : Nat} {m : Move} {worker : Worker}
    (there : m.before.workers[index]? = some worker) :
    m.Punctual index ↔ ∀ due, worker.due? = some due →
      m.after.catalog.now ≤ max m.before.catalog.now due := by
  rw [Punctual, there]
  rfl

/-- The worker with an index goes on, or time passes, but not more than the worker has to wait. -/
structure Move.Diligent (index : Nat) (m : Move) : Prop where
  own : m.action = .worker index .ticks ∨ ∃ duration, m.action = .wait duration
  punctual : m.Punctual index

namespace World

variable {setting : Setting} {w : World} {index : Nat} {worker : Worker}

/-- Once its time has come, a worker can go on. -/
theorem isSome_turn? {terms : Catalog.Terms} {s : State} {due : Nat}
    (hd : worker.due? = some due) (passed : due ≤ s.now) :
    (turn? terms s worker .ticks).isSome := by
  obtain ⟨interval, activity, channel⟩ := worker
  cases activity with
  | idle d =>
    obtain rfl : d = due := Option.some.inj hd
    simp only [turn?, Worker.tick, if_pos passed]
    rfl
  | busy d cycle =>
    have passed : cycle.due ≤ s.now := Option.some.inj hd ▸ passed
    have able : (cycle.step terms s).isSome := Cycle.isSome_step passed
    obtain ⟨⟨s', next | outcome⟩, step⟩ := Option.isSome_iff_exists.mp able
    all_goals simp only [turn?, Worker.proceed, step]; rfl
  | stopped => cases hd

/-- **A worker at work goes on** after the time that it has to wait. -/
theorem exists_advance (setting : Setting) {due : Nat} (there : w.workers[index]? = some worker)
    (hd : worker.due? = some due) :
    ∃ moves next worker', Run setting w moves next ∧ (∀ m ∈ moves, m.Diligent index) ∧
      next.workers[index]? = some worker' ∧
      Turn setting.terms (w.wait (due - w.catalog.now)).catalog worker .ticks next.catalog worker' ∧
      ticks index moves =
        (Tick.between? (max w.catalog.now due) worker.activity worker'.activity).toList ∧
      finishes index moves =
        (finishBetween? (max w.catalog.now due) worker.activity worker'.activity).toList := by
  generalize hw : w.wait (due - w.catalog.now) = late
  have now : late.catalog.now = max w.catalog.now due := by
    rw [← hw]
    show w.catalog.now + (due - w.catalog.now) = _
    omega
  have waited : late.workers[index]? = some worker := by
    rw [← hw]
    exact there
  have able : (late.stepWorker? setting index .ticks).isSome := by
    rw [stepWorker?_eq, waited, Option.bind_some, Option.isSome_map]
    exact isSome_turn? hd (now ▸ Nat.le_max_right _ _)
  obtain ⟨next, step⟩ := Option.isSome_iff_exists.mp able
  obtain ⟨own, worker', same, turn, eq⟩ := turn_of_stepWorker? step
  obtain rfl := Option.some.inj (waited.symm.trans same)
  have here : next.workers[index]? = some worker' := by
    rw [eq]
    exact List.getElem?_set_self (List.getElem?_eq_some_iff.mp waited).1
  have pause : w.act? setting (.wait (due - w.catalog.now)) = some late := congrArg some hw
  have act : late.act? setting (.worker index .ticks) = some next := step
  refine ⟨_, next, worker', .snoc (.snoc .refl pause) act, ?_, here, turn, ?_, ?_⟩
  · have still : next.catalog.now = late.catalog.now :=
      (effect_of_act? act).now_eq
    intro m hm
    rcases List.mem_append.mp hm with hm | hm
    · obtain rfl := List.mem_singleton.mp hm
      refine ⟨.inr ⟨_, rfl⟩, (Move.punctual_iff there).mpr ?_⟩
      intro d hd'
      obtain rfl := Option.some.inj (hd.symm.trans hd')
      exact Nat.le_of_eq now
    · obtain rfl := List.mem_singleton.mp hm
      refine ⟨.inl rfl, ?_⟩
      intro d _
      exact still ▸ Nat.le_max_left _ _
  · rw [ticks_snoc, ticks_snoc, Move.tick?_eq there waited, Move.tick?_eq waited here]
    dsimp only
    rw [Tick.between?_self, now]
    rfl
  · rw [finishes_snoc, finishes_snoc, Move.finish?_eq there waited, Move.finish?_eq waited here]
    dsimp only
    rw [finishBetween?_self, now]
    rfl

/-- **A refresh can be brought to its end**, whatever comes back from the supplier and when. -/
theorem exists_end (setting : Setting) {due : Nat} {cycle : Cycle}
    (there : w.workers[index]? = some worker) (busy : worker.activity = .busy due cycle) :
    ∃ moves next worker', Run setting w moves next ∧ (∀ m ∈ moves, m.Diligent index) ∧
      next.workers[index]? = some worker' ∧ worker' = { worker with activity := .idle due } ∧
      ticks index moves = [] ∧ (finishes index moves).length = 1 := by
  -- every step but the last leaves fewer steps to go
  induction hn : cycle.remaining setting.terms.policy using Nat.strongRecOn
    generalizing w worker cycle with
  | ind n ih =>
    have hd : worker.due? = some cycle.due := by rw [Worker.due?, busy]
    obtain ⟨moves, v, own, run, diligent, here, turn, began, ended⟩ :=
      exists_advance setting there hd
    generalize v.catalog = s at turn
    cases turn with
    | tick idle passed => rw [busy] at idle; cases idle
    | @onward _ d c next _ still onward =>
      obtain ⟨rfl, rfl⟩ := Catalog.Activity.busy.inj (busy.symm.trans still)
      obtain ⟨moves', w', worker', run', diligent', there', rfl, began', ended'⟩ :=
        ih _ (hn ▸ onward.remaining_lt) here rfl rfl
      refine ⟨moves ++ moves', w', _, run.append run', ?_, there', rfl, ?_, ?_⟩
      · exact List.forall_mem_append.mpr ⟨diligent, diligent'⟩
      · rw [ticks_append, began, began', busy]
        rfl
      · rw [finishes, List.filterMap_append, List.length_append, ← finishes, ← finishes, ended,
          ended', busy]
        rfl
    | @ended _ d c e still ending =>
      obtain ⟨rfl, rfl⟩ := Catalog.Activity.busy.inj (busy.symm.trans still)
      refine ⟨moves, v, _, run, diligent, here, rfl, ?_, ?_⟩
      · rw [began, busy]
        rfl
      · rw [ended, busy]
        rfl

/-- A worker between refreshes can begin one. -/
theorem exists_begin (setting : Setting) {due : Nat} (there : w.workers[index]? = some worker)
    (idle : worker.activity = .idle due) :
    ∃ moves next worker', Run setting w moves next ∧ (∀ m ∈ moves, m.Diligent index) ∧
      next.workers[index]? = some worker' ∧ worker'.isRunning = true ∧
      (ticks index moves).length = 1 := by
  have hd : worker.due? = some due := by rw [Worker.due?, idle]
  obtain ⟨moves, v, own, run, diligent, here, turn, began, -⟩ := exists_advance setting there hd
  have begun : ∃ due cycle, own.activity = .busy due cycle := by
    generalize v.catalog = s at turn
    cases turn with
    | tick idle passed => exact ⟨_, _, rfl⟩
    | onward busy onward => rw [idle] at busy; cases busy
    | ended busy ending => rw [idle] at busy; cases busy
  obtain ⟨due, cycle, busy⟩ := begun
  refine ⟨moves, v, own, run, diligent, here, isRunning_of_busy busy, ?_⟩
  rw [began, idle, busy]
  rfl

/-- **A worker at work can begin any number of refreshes**, with nothing but its own steps. -/
theorem exists_ticks (setting : Setting) (n : Nat) (there : w.workers[index]? = some worker)
    (running : worker.isRunning = true) :
    ∃ moves next, Run setting w moves next ∧ (∀ m ∈ moves, m.Diligent index) ∧
      (ticks index moves).length = n := by
  induction n generalizing w worker with
  | zero => exact ⟨[], w, .refl, fun m hm => absurd hm List.not_mem_nil, rfl⟩
  | succ n ih =>
    -- a worker between refreshes begins one, and then there are the others
    have begin_ : ∀ {w : World} {worker : Worker} {due : Nat},
        w.workers[index]? = some worker → worker.activity = .idle due →
        ∃ moves next, Run setting w moves next ∧ (∀ m ∈ moves, m.Diligent index) ∧
          (ticks index moves).length = n + 1 := by
      intro w worker due there idle
      obtain ⟨moves, v, own, run, diligent, here, running, one⟩ := exists_begin setting there idle
      obtain ⟨moves', next, run', diligent', rest⟩ := ih here running
      refine ⟨moves ++ moves', next, run.append run', ?_, ?_⟩
      · exact List.forall_mem_append.mpr ⟨diligent, diligent'⟩
      · rw [ticks_append, List.length_append, one, rest]
        omega
    obtain ⟨interval, activity, channel⟩ := worker
    cases activity with
    | idle due => exact begin_ there rfl
    | busy due cycle =>
      obtain ⟨moves, v, own, run, diligent, here, rfl, none, -⟩ := exists_end setting there rfl
      obtain ⟨moves', next, run', diligent', rest⟩ := begin_ here rfl
      refine ⟨moves ++ moves', next, run.append run', ?_, ?_⟩
      · exact List.forall_mem_append.mpr ⟨diligent, diligent'⟩
      · rw [ticks_append, none, List.nil_append, rest]
    | stopped => cases running

end World

end ProductSegments.Service
