import ProductSegments.Proofs.Service.Snapshot

/-!
# How old the products are

What is kept has come with the answer to some call, and is as old as that call.  Refreshes that
overlap are not put in order: the one that ends last is kept, even if its call began first.  So a
refresh can be undone by another one, but only by one whose call was in flight when it ended.

## Main definitions

* `Service.World.inFlight` — the calls that refreshes wait for.
* `Service.stores` — the refreshes of a run that have stored products.
* `Service.NeverOlder` — products are never replaced by older ones.

## Main results

* `Service.Run.inFlight` — a call in flight has been for as long as a run, or began in it.
* `Service.not_neverOlder_overtaken` — products can be replaced by older ones.
* `Service.Run.freshness` — by what kind of refresh that can happen.
-/

namespace ProductSegments

open Catalog (State Visit Cycle Worker Outcome Ending Call)

/-! ### Calls in flight -/

namespace Catalog

/-- The call that a refresh waits for. -/
def Cycle.call? : Cycle → Option Call
  | .calling _ call => some call
  | .resting .. => none

/-- The next call of a refresh begins at the moment. -/
theorem Cycle.Onward.begun_eq {terms : Terms} {s s' : State} {cycle next : Cycle} {call : Call}
    (h : Cycle.Onward terms s cycle s' next) (hc : next.call? = some call) : call.begun = s.now := by
  cases h with
  | rest due repeats => cases hc
  | again passed =>
    obtain rfl := Option.some.inj hc
    rfl

theorem Worker.cycle?_send (value : Bool) (worker : Worker) :
    (worker.send value).cycle? = worker.cycle? := by
  unfold send
  split <;> rfl

theorem Worker.cycle?_close (worker : Worker) : worker.close.cycle? = worker.cycle? := rfl

theorem Worker.cycle?_start (now interval : Nat) : (Worker.start now interval).cycle? = none := by
  unfold start cycle?
  split
  · next h =>
    split at h <;> cases h
  · rfl

end Catalog

namespace Service

/-- The call that a client waits for in a refresh. -/
def Client.call? (c : Client) : Option Call := c.cycle?.bind Cycle.call?

/-- The calls that refreshes wait for. -/
def World.inFlight (w : World) : List Call :=
  w.clients.filterMap Client.call? ++
    w.workers.filterMap fun worker => worker.cycle?.bind Cycle.call?

variable {setting : Setting} {w next : World} {action : Action} {moves : List Move} {call : Call}

namespace World

theorem mem_inFlight_of_client {c : Client} (hc : c ∈ w.clients) (h : c.call? = some call) :
    call ∈ w.inFlight :=
  List.mem_append_left _ (List.mem_filterMap.mpr ⟨c, hc, h⟩)

theorem mem_inFlight_of_worker {worker : Worker} (hw : worker ∈ w.workers)
    (h : worker.cycle?.bind Cycle.call? = some call) : call ∈ w.inFlight :=
  List.mem_append_right _ (List.mem_filterMap.mpr ⟨worker, hw, h⟩)

/-- A refresh that ends has waited for its last call. -/
theorem mem_inFlight_of_ending? {e : Ending} (h : w.ending? setting action = some e) :
    e.call ∈ w.inFlight := by
  obtain ⟨cycle, hc, he⟩ := Option.bind_eq_some_iff.mp h
  obtain ⟨attempt, rfl, -⟩ := Cycle.ending?_eq_some_iff.mp he
  unfold cycle? at hc
  split at hc
  · next index =>
    obtain ⟨c, client, hc⟩ := Option.bind_eq_some_iff.mp hc
    refine mem_inFlight_of_client (List.mem_of_getElem? client) ?_
    rw [Client.call?, hc]
    rfl
  · next index attention =>
    obtain ⟨worker, hw, hc⟩ := Option.bind_eq_some_iff.mp hc
    refine mem_inFlight_of_worker (List.mem_of_getElem? hw) ?_
    rw [hc]
    rfl
  · cases hc

/-- What the workers wait for does not change with their channels. -/
theorem filterMap_modify_of_eq {f : Worker → Worker} (same : ∀ worker, (f worker).cycle? = worker.cycle?)
    (workers : List Worker) (index : Nat) :
    ((workers.modify index f).filterMap fun worker => worker.cycle?.bind Cycle.call?) =
      workers.filterMap fun worker => worker.cycle?.bind Cycle.call? := by
  induction workers generalizing index with
  | nil => rw [List.modify_nil]
  | cons worker workers ih =>
    cases index with
    | zero => rw [List.modify_zero_cons, List.filterMap_cons, List.filterMap_cons, same]
    | succ index => rw [List.modify_succ_cons, List.filterMap_cons, List.filterMap_cons, ih]

/-- A client that waits for a call after an action has waited for it before, or it began with the
action. -/
theorem Effect.clients_inFlight (effect : Effect setting w action next) :
    ∀ c ∈ next.clients, ∀ call, c.call? = some call →
      call ∈ w.inFlight ∨ call.begun = w.catalog.now := by
  refine effect.forall_clients ?_ ?_ ?_ ?_
  · intro c hc call h
    exact .inl (mem_inFlight_of_client hc h)
  · intro reply call h
    cases h
  · intro purpose s result opening call h
    cases opening with
    | ask direct => cases h
    | refresh cached refresh =>
      obtain rfl := Option.some.inj h
      exact .inr rfl
    | served cached read kept => cases h
    | turn cached read cold free =>
      obtain rfl := Option.some.inj h
      exact .inr rfl
    | queue cached read cold taken => cases h
  · intro purpose visit s result _ effect call h
    cases effect with
    | served turn kept => cases h
    | turn turn cold =>
      obtain rfl := Option.some.inj h
      exact .inr rfl
    | load onward => exact .inr (onward.begun_eq h)
    | loaded ending => cases h
    | refresh onward => exact .inr (onward.begun_eq h)
    | refreshed ending => cases h
    | asked due => cases h

/-- A worker that waits for a call after an action has waited for it before, or it began with the
action. -/
theorem Effect.workers_inFlight (effect : Effect setting w action next) :
    ∀ call ∈ next.workers.filterMap fun worker => worker.cycle?.bind Cycle.call?,
      call ∈ w.inFlight ∨ call.begun = w.catalog.now := by
  have kept : ∀ call ∈ w.workers.filterMap fun worker => worker.cycle?.bind Cycle.call?,
      call ∈ w.inFlight ∨ call.begun = w.catalog.now :=
    fun call h => .inl (List.mem_append_right _ h)
  cases effect with
  | consult intent opening begun metrics ids log => exact kept
  | dispatch intent reply metrics ids => exact kept
  | visit client effect step metrics log => exact kept
  | work worker? effect =>
    intro call h
    obtain ⟨worker, hw, hc⟩ := List.mem_filterMap.mp h
    rcases List.mem_or_eq_of_mem_set hw with hw | rfl
    · exact .inl (mem_inFlight_of_worker hw hc)
    · right
      cases effect with
      | tick idle passed =>
        obtain rfl := Option.some.inj hc
        rfl
      | onward busy onward => exact onward.begun_eq hc
      | ended busy ending => cases hc
      | observe before after =>
        rw [after] at hc
        cases hc
  | start interval =>
    intro call h
    rw [List.filterMap_append] at h
    rcases List.mem_append.mp h with h | h
    · exact kept call h
    · rw [List.filterMap_cons, Worker.cycle?_start] at h
      cases h
  | signal index value =>
    rw [filterMap_modify_of_eq (Worker.cycle?_send value)]
    exact kept
  | close index =>
    rw [filterMap_modify_of_eq Worker.cycle?_close]
    exact kept
  | wait duration => exact kept

/-- A call in flight after an action was in flight before, or began with it. -/
theorem Effect.inFlight (effect : Effect setting w action next) (h : call ∈ next.inFlight) :
    call ∈ w.inFlight ∨ call.begun = w.catalog.now := by
  rcases List.mem_append.mp h with h | h
  · obtain ⟨c, hc, h⟩ := List.mem_filterMap.mp h
    exact effect.clients_inFlight c hc call h
  · exact effect.workers_inFlight call h

/-- The clock is never put back. -/
theorem Effect.now_le (effect : Effect setting w action next) :
    w.catalog.now ≤ next.catalog.now := by
  cases effect with
  | consult intent opening begun metrics ids log => cases opening <;> exact Nat.le_refl _
  | dispatch intent reply metrics ids => exact Nat.le_refl _
  | visit client effect step metrics log => exact Nat.le_of_eq effect.now.symm
  | work worker? effect => exact Nat.le_of_eq effect.now.symm
  | start interval => exact Nat.le_refl _
  | signal index value => exact Nat.le_refl _
  | close index => exact Nat.le_refl _
  | wait duration => exact Nat.le_add_right _ _

end World

theorem Run.now_le (h : Run setting w moves next) : w.catalog.now ≤ next.catalog.now := by
  induction h with
  | refl => exact Nat.le_refl _
  | snoc run act ih => exact Nat.le_trans ih (World.effect_of_act? act).now_le

/-- A call in flight at the end of a run has been in flight all the time, or began in it. -/
theorem Run.inFlight (h : Run setting w moves next) (flies : call ∈ next.inFlight) :
    call ∈ w.inFlight ∨ w.catalog.now ≤ call.begun := by
  induction h with
  | refl => exact .inl flies
  | snoc run act ih =>
    rcases (World.effect_of_act? act).inFlight flies with before | now
    · exact ih before
    · right
      rw [now]
      exact run.now_le

/-- No call in flight began later than now. -/
theorem Run.begun_le (h : Run setting .initial moves w) :
    ∀ call ∈ w.inFlight, call.begun ≤ w.catalog.now := by
  refine h.invariant (P := fun w => ∀ call ∈ w.inFlight, call.begun ≤ w.catalog.now) ?_ ?_
  · intro call flies
    cases flies
  · intro w next action all effect call flies
    rcases effect.inFlight flies with before | now
    · exact Nat.le_trans (all call before) effect.now_le
    · rw [now]
      exact effect.now_le

/-! ### Refreshes that have stored products -/

/-- The refreshes of a run that have stored products, the last ones at the end. -/
def stores (setting : Setting) (moves : List Move) : List Ending :=
  moves.filterMap fun m => (m.ending? setting).filter (·.products?.isSome)

theorem mem_stores_iff {e : Ending} : e ∈ stores setting moves ↔
    ∃ m ∈ moves, m.ending? setting = some e ∧ e.products?.isSome = true := by
  unfold stores
  rw [List.mem_filterMap]
  constructor
  · rintro ⟨m, hm, he⟩
    obtain ⟨ends, some⟩ := Option.filter_eq_some_iff.mp he
    exact ⟨m, hm, ends, some⟩
  · rintro ⟨m, hm, ends, some⟩
    exact ⟨m, hm, Option.filter_eq_some_iff.mpr ⟨ends, some⟩⟩

theorem stored_eq_filterMap_stores (moves : List Move) :
    (stores setting moves).map Ending.products? = (stored setting moves).map some := by
  unfold stores stored
  induction moves with
  | nil => rfl
  | cons m moves ih =>
    rw [List.filterMap_cons, List.filterMap_cons]
    cases m.ending? setting with
    | none => exact ih
    | some e =>
      rw [Option.filter_some, Option.bind_some]
      cases hp : e.products? with
      | none => exact ih
      | some products =>
        rw [if_pos (show (some products).isSome = true from rfl), List.map_cons, List.map_cons, hp,
          ih]

/-- What is kept has been stored by the last refresh that has stored anything. -/
theorem Run.snapshot_eq_of_stores (h : Run setting .initial moves w) {e : Ending}
    (last : (stores setting moves).getLast? = some e) : w.catalog.snapshot = e.products? := by
  have both : (stored setting moves).getLast?.map some = some e.products? := by
    rw [← List.getLast?_map, ← stored_eq_filterMap_stores, List.getLast?_map, last]
    rfl
  obtain ⟨products, hs, hp⟩ := Option.map_eq_some_iff.mp both
  rw [h.snapshot_eq, hs, ← hp]
  rfl

/-! ### Older products -/

/-- Products are never replaced by older ones: once a refresh has stored products, what is kept has
come with a call that began no earlier than the call that brought them. -/
def NeverOlder (setting : Setting) : Prop :=
  ∀ before m after w e, Run setting .initial (before ++ m :: after) w →
    m.ending? setting = some e → e.products?.isSome = true →
    ∀ e', (stores setting (before ++ m :: after)).getLast? = some e' →
      e.call.begun ≤ e'.call.begun

/-- A supplier that is slow at first and then fast. -/
def overtaken : Catalog.Supplier := .ofList [⟨.ok [], 1000⟩, ⟨.ok [], 10⟩]

/-- A refresh on request begins after one of a worker and ends before it. -/
theorem exists_run_overtaken : ∃ before m after w e e',
    Run (.cached ⟨overtaken, .none⟩) .initial (before ++ m :: after) w ∧
    m.ending? (.cached ⟨overtaken, .none⟩) = some e ∧ e.products?.isSome = true ∧
    (stores (.cached ⟨overtaken, .none⟩) (before ++ m :: after)).getLast? = some e' ∧
    e'.call.begun < e.call.begun := by
  have evaluated : (World.initial.play? (.cached ⟨overtaken, .none⟩)
      [.start 60000, .worker 0 .ticks, .wait 5, .enter .refresh, .wait 10, .client 0, .wait 985,
        .worker 0 .ticks]).any
      (fun result => (stores (.cached ⟨overtaken, .none⟩) result.1).map (·.call.begun) = [5, 0]) =
        true := by
    decide +kernel
  obtain ⟨moves, w, run, shown⟩ := Run.exists_of_play? evaluated
  have begun : (stores (.cached ⟨overtaken, .none⟩) moves).map (·.call.begun) = [5, 0] :=
    of_decide_eq_true shown
  obtain ⟨e, rest, hs, five, -⟩ := List.map_eq_cons_iff.mp begun
  have last : (stores (.cached ⟨overtaken, .none⟩) moves).getLast?.map (·.call.begun) = some 0 := by
    rw [← List.getLast?_map, begun]
    rfl
  obtain ⟨e', last, zero⟩ := Option.map_eq_some_iff.mp last
  obtain ⟨m, hm, ends, succeeds⟩ := mem_stores_iff.mp (hs ▸ List.mem_cons_self)
  obtain ⟨before, after, rfl⟩ := List.append_of_mem hm
  exact ⟨before, m, after, w, e, e', run, ends, succeeds, last, by omega⟩

/-- **Products can be replaced by older ones**: a refresh on request overtakes that of a worker, and
is undone when the worker gets its answer. -/
theorem not_neverOlder_overtaken : ¬ NeverOlder (.cached ⟨overtaken, .none⟩) := by
  intro never
  obtain ⟨before, m, after, w, e, e', run, ends, succeeds, last, lt⟩ := exists_run_overtaken
  have le := never before m after w e run ends succeeds e' last
  omega

/-- A refresh may replace another one, after which the state was as given: its call began no earlier
than that of the other one, or was in flight when the other one ended. -/
def MayReplace (w : World) (e e' : Ending) : Prop :=
  e.call.begun ≤ e'.call.begun ∨ e'.call ∈ w.inFlight

/-- What is stored after a refresh has ended may replace what that refresh has stored. -/
theorem Run.mayReplace {before after : List Move} {m : Move}
    (h : Run setting .initial (before ++ m :: after) w) {e : Ending}
    (ends : m.ending? setting = some e) :
    ∀ e' ∈ stores setting (m :: after), MayReplace m.after e e' := by
  intro e' he'
  obtain ⟨v, run, hrest⟩ := Run.append_iff.mp h
  obtain ⟨rfl, act, later⟩ := Run.cons_iff.mp hrest
  -- the call of the refresh that ends with `m` had begun before
  have begun : e.call.begun ≤ m.after.catalog.now := by
    have flies : e.call ∈ m.before.inFlight := World.mem_inFlight_of_ending? ends
    exact Nat.le_trans (run.begun_le _ flies) (World.effect_of_act? act).now_le
  obtain ⟨m', hm', ends', -⟩ := mem_stores_iff.mp he'
  rcases List.mem_cons.mp hm' with rfl | hm'
  · obtain rfl := Option.some.inj (ends.symm.trans ends')
    exact .inl (Nat.le_refl _)
  · -- its last call was in flight when it ended, so it was at the time of `m`, or began since then
    obtain ⟨earlier, rest, rfl, between, -, -⟩ := later.of_mem hm'
    rcases between.inFlight (World.mem_inFlight_of_ending? ends') with flew | since
    · exact .inr flew
    · exact .inl (Nat.le_trans begun since)

/-- **Products are replaced by older ones only by overlapping refreshes.**  Once a refresh has
stored products, what is kept from then on has come with a call that began no earlier than its own,
or with one that was in flight when it ended; and so has what readers are given. -/
theorem Run.freshness (cached : setting.isCached = true) {before after : List Move} {m : Move}
    (h : Run setting .initial (before ++ m :: after) w) {e : Ending}
    (ends : m.ending? setting = some e) (succeeds : e.products?.isSome = true) :
    (∃ e' ∈ stores setting (m :: after), w.catalog.snapshot = e'.products? ∧
      MayReplace m.after e e') ∧
    ∀ m' ∈ after, ∀ r, m'.return? setting = some r → ∀ products, r.outcome = .ok products →
      ∃ e' ∈ stores setting (m :: after), e'.products? = some products ∧
        MayReplace m.after e e' := by
  have kept : ∀ {after w}, Run setting .initial (before ++ m :: after) w →
      ∃ e' ∈ stores setting (m :: after), w.catalog.snapshot = e'.products? ∧
        MayReplace m.after e e' := by
    intro after w h
    have first : e ∈ stores setting (m :: after) :=
      mem_stores_iff.mpr ⟨m, List.mem_cons_self, ends, succeeds⟩
    cases hl : (stores setting (m :: after)).getLast? with
    | none =>
      rw [List.getLast?_eq_none_iff.mp hl] at first
      cases first
    | some e' =>
      have member := List.mem_of_getLast? hl
      refine ⟨e', member, h.snapshot_eq_of_stores ?_, h.mayReplace ends e' member⟩
      rw [stores, List.filterMap_append, ← stores, ← stores, List.getLast?_append, hl]
      rfl
  refine ⟨kept h, ?_⟩
  intro m' hm' r hr products ok
  -- the run up to the answer ends with the snapshot that the reader is given
  obtain ⟨earlier, rest, rfl⟩ := List.append_of_mem hm'
  have split : before ++ m :: (earlier ++ m' :: rest) =
      (before ++ m :: (earlier ++ [m'])) ++ rest := by simp
  rw [split] at h
  obtain ⟨v, hv, -⟩ := Run.append_iff.mp h
  have upTo : (before ++ m :: earlier) ++ [m'] = before ++ m :: (earlier ++ [m']) := by simp
  obtain ⟨run, act, rfl⟩ := Run.snoc_iff.mp (upTo ▸ hv)
  obtain ⟨e', he', snapshot, may⟩ := kept hv
  have given := (World.effect_of_act? act).snapshot_of_return cached run.fits hr ok
  refine ⟨e', ?_, snapshot.symm.trans given, may⟩
  obtain ⟨x, hx, found⟩ := mem_stores_iff.mp he'
  refine mem_stores_iff.mpr ⟨x, ?_, found⟩
  simp only [List.mem_cons, List.mem_append, List.not_mem_nil, or_false] at hx ⊢
  rcases hx with rfl | hx | rfl
  · exact .inl rfl
  · exact .inr (.inl hx)
  · exact .inr (.inr (.inl rfl))

/-- The refresh of the worker may replace the one that has overtaken it. -/
theorem Run.freshness_overtaken : ∃ before m after w e,
    Run (.cached ⟨overtaken, .none⟩) .initial (before ++ m :: after) w ∧
    m.ending? (.cached ⟨overtaken, .none⟩) = some e ∧ e.products?.isSome = true ∧
    ∃ e' ∈ stores (.cached ⟨overtaken, .none⟩) (m :: after),
      w.catalog.snapshot = e'.products? ∧ MayReplace m.after e e' := by
  obtain ⟨before, m, after, w, e, -, run, ends, succeeds, -⟩ := exists_run_overtaken
  exact ⟨before, m, after, w, e, run, ends, succeeds, (freshness rfl run ends succeeds).1⟩

end Service

end ProductSegments
