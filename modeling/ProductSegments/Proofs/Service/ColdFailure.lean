import ProductSegments.Proofs.Service.ColdReads

/-!
# When readers fail

A reader is given a failure only if its own refresh has failed, and it had begun that refresh when
nothing was kept.  It does not look again at what is kept when its refresh has failed.  So it fails
as well if somebody else has stored products meanwhile.

## Main definitions

* `Service.FailsOnlyCold` — readers fail only as long as nothing is kept.
* `Service.OwnFailure` — where the failure of a reader comes from.

## Main results

* `Service.Run.exists_beginsLoad` — a reader that refreshes has begun to, and has not stopped since.
* `Service.not_failsOnlyCold_outrun` — a reader can fail while there are products.
* `Service.Run.own_failure` — exactly when that happens.
-/

namespace ProductSegments

open Catalog (State Visit Cycle Worker Outcome Ending)

namespace Service

variable {setting : Setting} {w next : World} {action : Action} {moves : List Move} {index : Nat}

/-! ### Since when a reader refreshes -/

/-- Only with its own action does a client become one that refreshes as a reader. -/
theorem World.Effect.client?_of_isLoadingAt (effect : World.Effect setting w action next)
    (before : w.isLoadingAt index = false) (after : next.isLoadingAt index = true) :
    w.client? action = some index := by
  have same : next.clients = w.clients → w.client? action = some index := by
    intro clients
    rw [World.isLoadingAt, clients] at after
    exact absurd (before.symm.trans after) Bool.false_ne_true
  -- of those who come in, it is the last one
  have came : ∀ c, next.clients = w.clients ++ [c] → index = w.clients.length := by
    intro c clients
    rw [World.isLoadingAt, clients] at after
    rcases Nat.lt_trichotomy index w.clients.length with lt | eq | gt
    · rw [List.getElem?_append_left lt] at after
      exact absurd (before.symm.trans after) Bool.false_ne_true
    · exact eq
    · have beyond : (w.clients ++ [c]).length ≤ index := by
        rw [List.length_append]
        exact gt
      rw [List.getElem?_eq_none beyond] at after
      cases after
  cases effect with
  | consult intent opening begun metrics ids log => exact congrArg some (came _ rfl).symm
  | dispatch intent reply metrics ids => exact congrArg some (came _ rfl).symm
  | @visit other purpose visit s result client effect step metrics log =>
    by_cases eq : other = index
    · exact congrArg some eq
    · rw [World.isLoadingAt, List.getElem?_set_ne eq] at after
      exact absurd (before.symm.trans after) Bool.false_ne_true
  | work worker? effect => exact same rfl
  | start interval => exact same rfl
  | signal index value => exact same rfl
  | close index => exact same rfl
  | wait duration => exact same rfl

/-- A reader that refreshes has begun to with a move of the run, and has not stopped since. -/
theorem Run.exists_beginsLoad (h : Run setting .initial moves w)
    (loading : w.isLoadingAt index = true) :
    ∃ earlier b since, moves = earlier ++ b :: since ∧
      b.before.client? b.action = some index ∧ b.beginsLoad = true ∧
      ∀ m ∈ since, m.before.isLoadingAt index = true := by
  induction h with
  | refl => cases loading
  | @snoc moves v next action run act ih =>
    cases before : v.isLoadingAt index with
    | true =>
      obtain ⟨earlier, b, since, rfl, client, begins, all⟩ := ih before
      refine ⟨earlier, b, since ++ [⟨v, action, next⟩], by simp, client, begins, ?_⟩
      exact List.forall_mem_append.mpr ⟨all, List.forall_mem_singleton.mpr before⟩
    | false =>
      have client := (World.effect_of_act? act).client?_of_isLoadingAt before loading
      refine ⟨moves, ⟨v, action, next⟩, [], rfl, client, ?_, fun m hm => absurd hm List.not_mem_nil⟩
      rw [Move.beginsLoad, client, Option.any_some, before, loading]
      rfl

/-- What is kept while a reader refreshes is what others have stored since it began. -/
theorem Run.snapshot_since {earlier since : List Move} {b : Move}
    (h : Run setting .initial (earlier ++ b :: since) w) (begins : b.beginsLoad = true) :
    b.before.catalog.snapshot = none ∧ w.catalog.snapshot = (stored setting since).getLast? := by
  obtain ⟨v, run, rest⟩ := Run.append_iff.mp h
  obtain ⟨rfl, act, later⟩ := Run.cons_iff.mp rest
  have effect := World.effect_of_act? act
  obtain ⟨cold, none⟩ := effect.cold_of_beginsLoad begins
  refine ⟨cold, ?_⟩
  rw [later.snapshot_eq, effect.snapshot, cold, none]
  cases (stored setting since).getLast? <;> rfl

/-! ### How a reader fails -/

/-- A reader is given a failure by its own refresh only. -/
theorem World.Effect.loadEnding?_of_failure (effect : World.Effect setting w action next)
    (cached : setting.isCached = true) (fits : ∀ c ∈ w.clients, c.Fits setting) {r : Return}
    (hr : w.return? setting action = some r) (read : r.purpose.isRefresh = false)
    {failure : Catalog.Failure} (failed : r.outcome = .error failure) :
    action = .client r.client ∧ w.isLoadingAt r.client = true ∧
      ∃ e, Move.loadEnding? setting ⟨w, action, next⟩ = some e ∧ e.outcome = .error failure := by
  cases effect.returned hr with
  | arrived cached read kept => cases failed
  | turned client turn kept => cases failed
  | @ended index purpose visit cycle e client cycle? ending =>
    have fit := fits _ (List.mem_of_getElem? client)
    cases visit with
    | queued ticket => cases cycle?
    | loading own =>
      have loading : w.isLoadingAt index = true := by
        rw [World.isLoadingAt, client]
        rfl
      refine ⟨rfl, loading, e, ?_, failed⟩
      rw [Move.loadEnding?, World.client?, Option.any_some, if_pos loading, Move.ending?,
        World.ending?_client client, cycle?, Option.bind_some, ending]
    | refreshing own => exact absurd (read.symm.trans fit.2) Bool.false_ne_true
    | asking call => cases cycle?
  | asked client due =>
    have direct : setting.isCached = false := fits _ (List.mem_of_getElem? client)
    exact absurd (direct.symm.trans cached) Bool.false_ne_true

/-- Where the failure comes from that a reader is given with a move after some others. -/
structure OwnFailure (setting : Setting) (before : List Move) (m : Move) (r : Return) : Prop where
  /-- It is the failure of its own refresh, which leaves alone what is kept. -/
  own : ∃ e, m.loadEnding? setting = some e ∧ e.outcome = r.outcome ∧
    m.after.catalog.snapshot = m.before.catalog.snapshot
  /-- The reader began that refresh when nothing was kept, and has not ended it before.  What is
  kept when it returns is what others have stored since; nothing is kept just as long as all others
  have failed. -/
  since : ∃ earlier b since, before = earlier ++ b :: since ∧
    b.before.client? b.action = some r.client ∧ b.beginsLoad = true ∧
    b.before.catalog.snapshot = none ∧
    (∀ x ∈ since, x.before.isLoadingAt r.client = true) ∧
    m.after.catalog.snapshot = (stored setting since).getLast? ∧
    (m.after.catalog.snapshot = none ↔
      ∀ x ∈ since, ∀ e, x.ending? setting = some e → e.products? = none)

/-- **A reader fails only by its own refresh**, which it began when nothing was kept.  If products
are kept when it returns, others have stored them in the meantime. -/
theorem Run.own_failure (cached : setting.isCached = true) {before after : List Move} {m : Move}
    (h : Run setting .initial (before ++ m :: after) w) {r : Return}
    (hr : m.return? setting = some r) (read : r.purpose.isRefresh = false)
    {failure : Catalog.Failure} (failed : r.outcome = .error failure) :
    OwnFailure setting before m r := by
  obtain ⟨v, run, rest⟩ := Run.append_iff.mp h
  obtain ⟨rfl, act, -⟩ := Run.cons_iff.mp rest
  have effect := World.effect_of_act? act
  obtain ⟨acts, loading, e, ends, outcome⟩ :=
    effect.loadEnding?_of_failure cached run.fits hr read failed
  -- a failure stores nothing
  have kept : m.after.catalog.snapshot = m.before.catalog.snapshot := by
    have ending : m.before.ending? setting m.action = some e := by
      rw [Move.loadEnding?, acts, World.client?, Option.any_some, if_pos loading, ← acts] at ends
      exact ends
    rw [effect.snapshot, ending, Option.bind_some, Ending.products?, outcome]
    rfl
  obtain ⟨earlier, b, since, rfl, client, begins, all⟩ := run.exists_beginsLoad loading
  obtain ⟨cold, snapshot⟩ := run.snapshot_since begins
  constructor
  case own => exact ⟨e, ends, outcome.trans failed.symm, kept⟩
  case since =>
    refine ⟨earlier, b, since, rfl, client, begins, cold, all, kept.trans snapshot, ?_⟩
    rw [kept, snapshot, List.getLast?_eq_none_iff, stored_eq_nil_iff]

/-! ### Failing while there are products -/

/-- Readers fail only as long as nothing is kept. -/
def FailsOnlyCold (setting : Setting) : Prop :=
  ∀ moves w, Run setting .initial moves w → ∀ m ∈ moves, ∀ r, m.return? setting = some r →
    r.purpose.isRefresh = false → ∀ failure, r.outcome = .error failure →
    m.after.catalog.snapshot = none

/-- A supplier that has products for the first call, and refuses the others more slowly. -/
def outrun : Catalog.Supplier := .ofList [⟨.ok [], 100⟩, ⟨.error .rejected, 200⟩]

/-- A reader comes while a worker refreshes: the worker stores products, and the reader fails. -/
theorem exists_run_outrun : ∃ before m after w r failure,
    Run (.cached ⟨outrun, .none⟩) .initial (before ++ m :: after) w ∧
    m.return? (.cached ⟨outrun, .none⟩) = some r ∧ r.purpose.isRefresh = false ∧
    r.outcome = .error failure ∧ m.after.catalog.snapshot ≠ none := by
  have evaluated : (World.initial.play? (.cached ⟨outrun, .none⟩)
      [.start 60000, .worker 0 .ticks, .enter .fetch, .wait 100, .worker 0 .ticks, .wait 100,
        .client 0]).any
      (fun result => result.1.any fun m => m.after.catalog.snapshot.isSome &&
        (m.return? (.cached ⟨outrun, .none⟩)).any fun r =>
          !r.purpose.isRefresh && r.outcome.toOption.isNone) = true := by
    decide +kernel
  obtain ⟨moves, w, run, shown⟩ := Run.exists_of_play? evaluated
  obtain ⟨m, hm, shown⟩ := List.any_eq_true.mp shown
  obtain ⟨kept, shown⟩ := Bool.and_eq_true_iff.mp shown
  obtain ⟨r, hr, shown⟩ := (Option.any_eq_true ..).mp shown
  obtain ⟨read, failed⟩ := Bool.and_eq_true_iff.mp shown
  obtain ⟨before, after, rfl⟩ := List.append_of_mem hm
  cases ho : r.outcome with
  | ok products =>
    rw [ho] at failed
    cases failed
  | error failure =>
    exact ⟨before, m, after, w, r, failure, run, hr, (Bool.not_eq_true' _).mp read, ho,
      Option.isSome_iff_ne_none.mp kept⟩

/-- **A reader can fail while there are products**: it does not look at what a worker has stored
while it was refreshing itself. -/
theorem not_failsOnlyCold_outrun : ¬ FailsOnlyCold (.cached ⟨outrun, .none⟩) := by
  intro never
  obtain ⟨before, m, after, w, r, failure, run, hr, read, failed, kept⟩ := exists_run_outrun
  refine kept (never _ w run m ?_ r hr read failure failed)
  exact List.mem_append_right _ List.mem_cons_self

/-- The reader that is outrun by a worker has failed by its own refresh. -/
theorem Run.own_failure_outrun : ∃ before m after w r failure,
    Run (.cached ⟨outrun, .none⟩) .initial (before ++ m :: after) w ∧
    m.return? (.cached ⟨outrun, .none⟩) = some r ∧ r.purpose.isRefresh = false ∧
    r.outcome = .error failure ∧ m.after.catalog.snapshot ≠ none ∧
    OwnFailure (.cached ⟨outrun, .none⟩) before m r := by
  obtain ⟨before, m, after, w, r, failure, run, hr, read, failed, kept⟩ := exists_run_outrun
  exact ⟨before, m, after, w, r, failure, run, hr, read, failed, kept,
    own_failure rfl run hr read failed⟩

end Service

end ProductSegments
