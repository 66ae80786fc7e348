import ProductSegments.Catalog.Worker

/-!
# The steps of visits and workers

What each step of a refresh, a visit or a worker can do to the state of the catalog, said once.
Everything about runs of the service is read off these relations; the step functions themselves
are opened here only.

## Main definitions

* `Catalog.Ending` — the last call of a refresh that ends, with its outcome.
* `Catalog.Cycle.ending?` — how a refresh ends, if its next step is its last.
* `Catalog.Cycle.Onward` — a step of a refresh that is not its last.
* `Catalog.Visit.Effect`, `Catalog.Worker.Effect` — the steps of a visit and of a worker.

## Main results

* `Catalog.Cycle.ending?_eq_some_iff` — a refresh ends with an answer that is not asked for again.
* `Catalog.Visit.effect_of_step`, `Catalog.Worker.effect_of_tick`,
  `Catalog.Worker.effect_of_observe`, `Catalog.Worker.effect_of_proceed` — the step functions do
  nothing else.
-/

namespace ProductSegments

theorem eq_ok_of_toOption {ε α : Type} {x : Except ε α} {a : α} (h : x.toOption = some a) :
    x = .ok a := by
  cases x with
  | ok b => rw [Option.some.inj h]
  | error e => cases h

namespace Catalog

/-! ### Changes of the state -/

namespace State

variable (s : State)

@[simp] theorem snapshot_call (terms : Terms) : (s.call terms).1.snapshot = s.snapshot := rfl

@[simp] theorem now_conclude (outcome : Outcome) : (s.conclude outcome).now = s.now := by
  cases outcome <;> rfl
@[simp] theorem calls_conclude (outcome : Outcome) : (s.conclude outcome).calls = s.calls := by
  cases outcome <;> rfl
@[simp] theorem holder_conclude (outcome : Outcome) : (s.conclude outcome).holder = s.holder := by
  cases outcome <;> rfl
@[simp] theorem queue_conclude (outcome : Outcome) : (s.conclude outcome).queue = s.queue := by
  cases outcome <;> rfl
@[simp] theorem tickets_conclude (outcome : Outcome) :
    (s.conclude outcome).tickets = s.tickets := by
  cases outcome <;> rfl

/-- Products replace the snapshot, a failure leaves it as it is. -/
@[simp] theorem snapshot_conclude (outcome : Outcome) :
    (s.conclude outcome).snapshot = (outcome.toOption <|> s.snapshot) := by
  cases outcome <;> rfl

/-- A reader whose refresh has ended returns its outcome: after a success there is a snapshot, and
it holds the products of that success. -/
theorem map_snapshot_conclude (outcome : Outcome) :
    (outcome.map fun _ => (s.conclude outcome).snapshot.getD []) = outcome := by
  cases outcome <;> rfl

@[simp] theorem calls_release : s.release.calls = s.calls := rfl
@[simp] theorem snapshot_release : s.release.snapshot = s.snapshot := rfl
@[simp] theorem holder_release : s.release.holder = s.queue.head? := rfl
@[simp] theorem queue_release : s.release.queue = s.queue.tail := rfl
@[simp] theorem tickets_release : s.release.tickets = s.tickets := rfl

end State

/-! ### Refreshes -/

/-- The last call of a refresh that ends, with its outcome. -/
structure Ending where
  call : Call
  outcome : Outcome

/-- The products that a refresh stores when it ends, if it succeeds. -/
def Ending.products? (e : Ending) : Option (List Product) := e.outcome.toOption

namespace Cycle

variable {terms : Terms} {s s' : State} {cycle next : Cycle} {outcome : Outcome}

/-- How a refresh ends, if its next step is its last. -/
def ending? (terms : Terms) (s : State) : Cycle → Option Ending
  | calling attempt call =>
    match (calling attempt call).step terms s with
    | some (_, .inr outcome) => some ⟨call, outcome⟩
    | _ => none
  | resting .. => none

/-- A refresh ends when the answer to its last call has come and is not asked for again. -/
theorem ending?_eq_some_iff {e : Ending} :
    cycle.ending? terms s = some e ↔ ∃ attempt, cycle = .calling attempt e.call ∧
      e.call.due ≤ s.now ∧ e.outcome = (terms.supplier e.call.index).outcome ∧
      terms.policy.wait? Failure.isRetryable attempt e.outcome = none := by
  cases cycle with
  | resting attempt due => simp [ending?]
  | calling attempt call =>
    simp only [ending?, step]
    -- the answer must have come, and then the policy decides
    by_cases hd : call.due ≤ s.now
    · rw [if_pos hd]
      cases hw : terms.policy.wait? Failure.isRetryable attempt
          (terms.supplier call.index).outcome with
      | none =>
        constructor
        · intro h
          obtain rfl := Option.some.inj h
          exact ⟨attempt, rfl, hd, rfl, hw⟩
        · rintro ⟨a, hc, -, ho, -⟩
          obtain ⟨rfl, rfl⟩ := calling.inj hc
          rw [← ho]
      | some wait =>
        constructor
        · intro h; cases h
        · rintro ⟨a, hc, -, ho, hn⟩
          obtain ⟨rfl, rfl⟩ := calling.inj hc
          rw [ho, hw] at hn
          cases hn
    · rw [if_neg hd]
      constructor
      · intro h; cases h
      · rintro ⟨a, hc, hd', -, -⟩
        obtain ⟨rfl, rfl⟩ := calling.inj hc
        exact absurd hd' hd

/-- A step of a refresh that is not its last: after a call that is repeated comes a wait, and after
the wait the next call. -/
inductive Onward (terms : Terms) (s : State) : Cycle → State → Cycle → Prop where
  | rest {attempt : UInt32} {call : Call} {wait : Nat} (due : call.due ≤ s.now)
      (repeats : terms.policy.wait? Failure.isRetryable attempt
        (terms.supplier call.index).outcome = some wait) :
      Onward terms s (.calling attempt call) s (.resting (attempt + 1) (later s.now wait))
  | again {attempt : UInt32} {due : Nat} (passed : due ≤ s.now) :
      Onward terms s (.resting attempt due) (s.call terms).1 (.calling attempt (s.call terms).2)

theorem onward_of_step (h : cycle.step terms s = some (s', .inl next)) :
    Onward terms s cycle s' next := by
  cases cycle with
  | calling attempt call =>
    simp only [step] at h
    split at h
    · next hd =>
      split at h
      · next wait hw =>
        simp only [Option.some.injEq, Prod.mk.injEq, Sum.inl.injEq] at h
        obtain ⟨rfl, rfl⟩ := h
        exact .rest hd hw
      · simp at h
    · cases h
  | resting attempt due =>
    simp only [step] at h
    split at h
    · next hd =>
      simp only [Option.some.injEq, Prod.mk.injEq, Sum.inl.injEq] at h
      obtain ⟨rfl, rfl⟩ := h
      exact .again hd
    · cases h

/-- The last step of a refresh leaves the state to what becomes of the outcome. -/
theorem ending?_of_step (h : cycle.step terms s = some (s', .inr outcome)) :
    s' = s ∧ ∃ call, cycle.ending? terms s = some ⟨call, outcome⟩ := by
  cases cycle with
  | calling attempt call =>
    refine ⟨?_, call, by simp only [ending?, h]⟩
    simp only [step] at h
    split at h
    · split at h
      · simp at h
      · simp only [Option.some.injEq, Prod.mk.injEq] at h
        exact h.1.symm
    · cases h
  | resting attempt due =>
    simp only [step] at h
    split at h
    · simp at h
    · cases h

theorem Onward.snapshot (h : Onward terms s cycle s' next) : s'.snapshot = s.snapshot := by
  cases h <;> rfl

theorem Onward.now (h : Onward terms s cycle s' next) : s'.now = s.now := by
  cases h <;> rfl

theorem Onward.ending? (h : Onward terms s cycle s' next) : cycle.ending? terms s = none := by
  cases h with
  | rest due repeats => simp [Cycle.ending?, step, due, repeats]
  | again passed => rfl

/-- Once its time has come, a refresh can go on. -/
theorem isSome_step (h : cycle.due ≤ s.now) : (cycle.step terms s).isSome := by
  cases cycle with
  | calling attempt call =>
    have hd : call.due ≤ s.now := h
    simp only [step, if_pos hd]
    split <;> rfl
  | resting attempt due =>
    have hd : due ≤ s.now := h
    simp only [step, if_pos hd]
    rfl

end Cycle

/-! ### Visits -/

namespace Visit

variable {terms : Terms} {s s' : State} {visit : Visit} {result : Visit ⊕ Outcome}

/-- A step of a visit. -/
inductive Effect (terms : Terms) (s : State) : Visit → State → Visit ⊕ Outcome → Prop where
  /-- A reader whose turn has come finds products. -/
  | served {ticket : Nat} {products : List Product} (turn : s.holder = some ticket)
      (kept : s.snapshot = some products) :
      Effect terms s (.queued ticket) s.release (.inr (.ok products))
  /-- A reader whose turn has come finds none, and begins a refresh. -/
  | turn {ticket : Nat} (turn : s.holder = some ticket) (cold : s.snapshot = none) :
      Effect terms s (.queued ticket) (s.call terms).1 (.inl (.loading (.calling 0 (s.call terms).2)))
  | load {cycle next : Cycle} {s' : State} (onward : Cycle.Onward terms s cycle s' next) :
      Effect terms s (.loading cycle) s' (.inl (.loading next))
  | loaded {cycle : Cycle} {e : Ending} (ending : cycle.ending? terms s = some e) :
      Effect terms s (.loading cycle) (s.conclude e.outcome).release (.inr e.outcome)
  | refresh {cycle next : Cycle} {s' : State} (onward : Cycle.Onward terms s cycle s' next) :
      Effect terms s (.refreshing cycle) s' (.inl (.refreshing next))
  | refreshed {cycle : Cycle} {e : Ending} (ending : cycle.ending? terms s = some e) :
      Effect terms s (.refreshing cycle) (s.conclude e.outcome) (.inr e.outcome)
  | asked {call : Call} (due : call.due ≤ s.now) :
      Effect terms s (.asking call) s (.inr (terms.supplier call.index).outcome)

/-- No step takes time. -/
theorem Effect.now (h : Effect terms s visit s' result) : s'.now = s.now := by
  cases h with
  | served turn kept => rfl
  | turn turn cold => rfl
  | load onward => exact onward.now
  | loaded ending => exact State.now_conclude s _
  | refresh onward => exact onward.now
  | refreshed ending => exact State.now_conclude s _
  | asked due => rfl

theorem effect_of_step (h : visit.step terms s = some (s', result)) :
    Effect terms s visit s' result := by
  cases visit with
  | queued ticket =>
    simp only [step] at h
    split at h
    · next turn =>
      -- others may have stored products while the reader waited
      simp only [State.takeTurn, Option.some.injEq] at h
      cases hs : s.snapshot with
      | some products =>
        simp only [hs, Prod.mk.injEq] at h
        obtain ⟨rfl, rfl⟩ := h
        exact .served turn hs
      | none =>
        simp only [hs, Prod.mk.injEq] at h
        obtain ⟨rfl, rfl⟩ := h
        exact .turn turn hs
    · cases h
  | loading cycle =>
    simp only [step] at h
    split at h
    · cases h
    · next hc =>
      simp only [Option.some.injEq, Prod.mk.injEq] at h
      obtain ⟨rfl, rfl⟩ := h
      exact .load (Cycle.onward_of_step hc)
    · next hc =>
      obtain ⟨rfl, call, he⟩ := Cycle.ending?_of_step hc
      simp only [State.map_snapshot_conclude, Option.some.injEq, Prod.mk.injEq] at h
      obtain ⟨rfl, rfl⟩ := h
      exact .loaded he
  | refreshing cycle =>
    simp only [step] at h
    split at h
    · cases h
    · next hc =>
      simp only [Option.some.injEq, Prod.mk.injEq] at h
      obtain ⟨rfl, rfl⟩ := h
      exact .refresh (Cycle.onward_of_step hc)
    · next hc =>
      obtain ⟨rfl, call, he⟩ := Cycle.ending?_of_step hc
      simp only [Option.some.injEq, Prod.mk.injEq] at h
      obtain ⟨rfl, rfl⟩ := h
      exact .refreshed he
  | asking call =>
    simp only [step] at h
    split at h
    · next due =>
      simp only [Option.some.injEq, Prod.mk.injEq] at h
      obtain ⟨rfl, rfl⟩ := h
      exact .asked due
    · cases h

/-- Once its time has come, a visit that does not wait for another one can go on. -/
theorem isSome_step {due : Nat} (hv : visit.due? = some due) (h : due ≤ s.now) :
    (visit.step terms s).isSome := by
  cases visit with
  | queued ticket => cases hv
  | loading cycle =>
    have hc : (cycle.step terms s).isSome := Cycle.isSome_step (Option.some.inj hv ▸ h)
    obtain ⟨⟨s', next | outcome⟩, hr⟩ := Option.isSome_iff_exists.mp hc
    all_goals simp only [step, hr]; rfl
  | refreshing cycle =>
    have hc : (cycle.step terms s).isSome := Cycle.isSome_step (Option.some.inj hv ▸ h)
    obtain ⟨⟨s', next | outcome⟩, hr⟩ := Option.isSome_iff_exists.mp hc
    all_goals simp only [step, hr]; rfl
  | asking call =>
    have hd : call.due ≤ s.now := Option.some.inj hv ▸ h
    simp only [step, if_pos hd]
    rfl

end Visit

/-! ### Workers -/

namespace Worker

variable {terms : Terms} {s s' : State} {worker worker' : Worker}

/-- The refresh that a worker is busy with. -/
def cycle? (worker : Worker) : Option Cycle :=
  match worker.activity with
  | .busy _ cycle => some cycle
  | _ => none

/-- A step of a worker. -/
inductive Effect (terms : Terms) (s : State) (worker : Worker) : State → Worker → Prop where
  | tick {due : Nat} (idle : worker.activity = .idle due) (passed : due ≤ s.now) :
      Effect terms s worker (s.call terms).1 { worker with
        activity := .busy (nextDue worker.interval due s.now) (.calling 0 (s.call terms).2) }
  | onward {due : Nat} {cycle next : Cycle} {s' : State} (busy : worker.activity = .busy due cycle)
      (onward : Cycle.Onward terms s cycle s' next) :
      Effect terms s worker s' { worker with activity := .busy due next }
  | ended {due : Nat} {cycle : Cycle} {e : Ending} (busy : worker.activity = .busy due cycle)
      (ending : cycle.ending? terms s = some e) :
      Effect terms s worker (s.conclude e.outcome) { worker with activity := .idle due }
  | observe {worker' : Worker} (before : worker.cycle? = none) (after : worker'.cycle? = none) :
      Effect terms s worker s worker'

/-- No step takes time. -/
theorem Effect.now (h : Effect terms s worker s' worker') : s'.now = s.now := by
  cases h with
  | tick idle passed => rfl
  | onward busy onward => exact onward.now
  | ended busy ending => exact State.now_conclude s _
  | observe before after => rfl

theorem effect_of_tick (h : worker.tick terms s = some (s', worker')) :
    Effect terms s worker s' worker' := by
  unfold tick at h
  split at h
  · next due hidle =>
    split at h
    · next hd =>
      simp only [Option.some.injEq, Prod.mk.injEq] at h
      obtain ⟨rfl, rfl⟩ := h
      exact .tick hidle hd
    · cases h
  · cases h

theorem effect_of_observe (h : worker.observe = some worker') :
    Effect terms s worker s worker' := by
  unfold observe at h
  split at h
  · next due hidle =>
    have before : worker.cycle? = none := by simp [cycle?, hidle]
    refine .observe before ?_
    split at h
    · obtain rfl := Option.some.inj h
      split
      · rfl
      · exact before
    · split at h
      · obtain rfl := Option.some.inj h
        rfl
      · cases h
  · cases h

theorem effect_of_proceed (h : worker.proceed terms s = some (s', worker')) :
    Effect terms s worker s' worker' := by
  unfold proceed at h
  split at h
  · next due cycle hbusy =>
    split at h
    · cases h
    · next hc =>
      simp only [Option.some.injEq, Prod.mk.injEq] at h
      obtain ⟨rfl, rfl⟩ := h
      exact .onward hbusy (Cycle.onward_of_step hc)
    · next hc =>
      obtain ⟨rfl, call, he⟩ := Cycle.ending?_of_step hc
      simp only [Option.some.injEq, Prod.mk.injEq] at h
      obtain ⟨rfl, rfl⟩ := h
      exact .ended hbusy he
  · cases h

end Worker

end Catalog

end ProductSegments
