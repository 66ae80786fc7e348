import ProductSegments.Proofs.Service.Muted
import ProductSegments.Proofs.Service.WorkerProgress

/-!
# The timetable of a worker

A worker refreshes the catalog when its tick is due, but never before the refresh before has ended.
So a refresh that takes longer than the interval puts the next one off until its own end; there is
one refresh then and not one for every tick that was missed, since the tick after a late one is a
whole interval away.  A tick that is late by 5 milliseconds or less does not count as late, which
makes a difference if the interval is shorter than that.

Everything holds in every run.  How late a tick can be taken depends on how long a worker is kept
from going on that could; if that is no time at all, then all ticks are taken on time.

## Main definitions

* `Service.Tick.next` — when the tick after one is due.
* `Service.Timetable` — refreshes follow one another as they should.
* `Service.CatchesUpOnce` — the ticks that are missed are made up for by one refresh at most.
* `Service.Phase` — what a worker does fits the refreshes that it has begun and ended.

## Main results

* `Service.Timetable.tick`, `Service.Timetable.finish` — what one more tick and one more end make of
  a timetable.
* `Service.Run.keeps` — a worker keeps its timetable.
* `Service.Run.timetable` — what that is, with all that goes with it.
* `Service.not_neverBursts_brisk` — with a very short interval, a refresh can be made up for more
  than once.
-/

namespace ProductSegments.Service

open Catalog (State Worker Activity Channel Cycle)

/-! ### Timetables -/

/-- When the tick after one is due: an interval after this one was due, but an interval after it was
taken if that was more than 5 milliseconds late. -/
def Tick.next (interval : Nat) (t : Tick) : Nat :=
  if t.taken ≤ t.due + 5 then t.due + interval else t.taken + interval

theorem Tick.nextDue_eq (interval due taken : Nat) :
    Worker.nextDue interval due taken = Tick.next interval ⟨due, taken⟩ := by
  unfold Worker.nextDue Tick.next
  dsimp only
  split <;> split <;> omega

/-- The refreshes that a worker has begun and ended follow one another as they should.  If the
worker is never kept from going on, they do so without delay. -/
structure Timetable (unhindered : Prop) (interval start : Nat) (ticks : List Tick)
    (ends : List Nat) : Prop where
  /-- There is one refresh at a time. -/
  alternate : ends.length ≤ ticks.length ∧ ticks.length ≤ ends.length + 1
  /-- The first tick is due at once. -/
  first : ∀ t : Tick, ticks[0]? = some t →
    t.due = start ∧ start ≤ t.taken ∧ (unhindered → t.taken = start)
  ended : ∀ (k : Nat) (t : Tick) (e : Nat), ticks[k]? = some t → ends[k]? = some e → t.taken ≤ e
  /-- A tick is taken when it is due and the refresh before has ended. -/
  next : ∀ (k : Nat) (t t' : Tick), ticks[k]? = some t → ticks[k + 1]? = some t' →
    ∃ e : Nat, ends[k]? = some e ∧ t'.due = t.next interval ∧ max e t'.due ≤ t'.taken ∧
      (unhindered → t'.taken = max e t'.due)

/-- What a worker does fits the refreshes that it has begun and ended by now. -/
inductive Phase (unhindered : Prop) (interval start now : Nat) (ticks : List Tick)
    (ends : List Nat) : Activity → Prop where
  | idle {due : Nat} (level : ends.length = ticks.length)
      (due_eq : due = ticks.getLast?.elim start (Tick.next interval))
      (since : ends.getLast?.getD start ≤ now)
      (soon : unhindered → now ≤ max (ends.getLast?.getD start) due) :
      Phase unhindered interval start now ticks ends (.idle due)
  | busy {due : Nat} {cycle : Cycle} {earlier : List Tick} {t : Tick}
      (latest : ticks = earlier ++ [t]) (behind : ends.length = earlier.length)
      (due_eq : due = t.next interval) (since : t.taken ≤ now) :
      Phase unhindered interval start now ticks ends (.busy due cycle)

/-- At most one refresh makes up for the ticks that another one has missed: the ones after that are
not due before it has ended. -/
def CatchesUpOnce (ticks : List Tick) (ends : List Nat) : Prop :=
  ∀ (j k : Nat) (t : Tick) (e : Nat), ends[k]? = some e → ticks[j]? = some t → k + 1 < j →
    e ≤ t.due

section

variable {unhindered : Prop} {interval start now : Nat} {ticks : List Tick} {ends : List Nat}

theorem timetable_nil : Timetable unhindered interval start [] [] where
  alternate := ⟨Nat.le_refl _, Nat.zero_le _⟩
  first := by
    intro t h
    cases h
  ended := by
    intro k t e h
    cases h
  next := by
    intro k t t' h
    cases h

/-- An element of a list with one more is one of the list, or the one more. -/
theorem getElem?_snoc_cases {α : Type} {l : List α} {a b : α} {k : Nat}
    (h : (l ++ [a])[k]? = some b) : l[k]? = some b ∨ k = l.length ∧ b = a := by
  rcases Nat.lt_or_ge k l.length with lt | ge
  · rw [List.getElem?_append_left lt] at h
    exact .inl h
  · have bound : k < (l ++ [a]).length := (List.getElem?_eq_some_iff.mp h).1
    rw [List.length_append, List.length_singleton] at bound
    obtain rfl : k = l.length := by omega
    rw [List.getElem?_concat_length] at h
    exact .inr ⟨rfl, (Option.some.inj h).symm⟩

/-- The element of a list with one more that another list of the same length has an element for is
one of the list. -/
theorem getElem?_of_snoc {α β : Type} {l : List α} {l' : List β} {a b : α} {b' : β} {k : Nat}
    (h : (l ++ [a])[k]? = some b) (h' : l'[k]? = some b') (level : l'.length = l.length) :
    l[k]? = some b := by
  rcases getElem?_snoc_cases h with old | ⟨rfl, -⟩
  · exact old
  · have bound : l.length < l'.length := (List.getElem?_eq_some_iff.mp h').1
    omega

/-- **One more tick** is taken in time. -/
theorem Timetable.tick {due : Nat} (table : Timetable unhindered interval start ticks ends)
    (phase : Phase unhindered interval start now ticks ends (.idle due)) (passed : due ≤ now) :
    Timetable unhindered interval start (ticks ++ [⟨due, now⟩]) ends := by
  cases phase with
  | idle level due_eq since soon =>
    constructor
    case alternate =>
      rw [List.length_append, List.length_singleton]
      omega
    case first =>
      intro t ht
      rcases getElem?_snoc_cases ht with old | ⟨none, rfl⟩
      · exact table.first t old
      · -- nothing has been begun and ended yet
        obtain rfl := List.length_eq_zero_iff.mp none.symm
        obtain rfl := List.length_eq_zero_iff.mp level
        have due_eq : due = start := due_eq
        have since : start ≤ now := since
        refine ⟨due_eq, since, ?_⟩
        intro hu
        have soon : now ≤ max start due := soon hu
        show now = start
        omega
    case ended =>
      intro k t e ht he
      exact table.ended k t e (getElem?_of_snoc ht he level) he
    case next =>
      intro k t t' ht ht'
      rcases getElem?_snoc_cases ht' with old | ⟨last, rfl⟩
      · have lt : k + 1 < ticks.length := (List.getElem?_eq_some_iff.mp old).1
        rw [List.getElem?_append_left (by omega)] at ht
        exact table.next k t t' ht old
      · -- the tick is the new one, and the refresh before it was the last one
        have bound : k < ends.length := by omega
        rw [List.getElem?_append_left (by omega)] at ht
        have ticksLast : ticks.getLast? = some t := by
          rw [List.getLast?_eq_getElem?, ← last]
          exact ht
        have endsLast : ends.getLast? = some ends[k] := by
          rw [List.getLast?_eq_getElem?, level, ← last]
          exact List.getElem?_eq_getElem bound
        rw [ticksLast] at due_eq
        rw [endsLast] at since soon
        refine ⟨ends[k], List.getElem?_eq_getElem bound, due_eq, ?_, ?_⟩
        · exact Nat.max_le.mpr ⟨since, passed⟩
        · intro hu
          exact Nat.le_antisymm (soon hu) (Nat.max_le.mpr ⟨since, passed⟩)

/-- **One more end** comes in turn. -/
theorem Timetable.finish {due : Nat} {cycle : Cycle}
    (table : Timetable unhindered interval start ticks ends)
    (phase : Phase unhindered interval start now ticks ends (.busy due cycle)) :
    Timetable unhindered interval start ticks (ends ++ [now]) := by
  cases phase with
  | @busy _ _ earlier latestTick latest behind due_eq since =>
    have length : ticks.length = ends.length + 1 := by
      rw [latest, List.length_append, List.length_singleton, behind]
    constructor
    case alternate =>
      rw [List.length_append, List.length_singleton]
      omega
    case first => exact table.first
    case ended =>
      intro k t e ht he
      rcases getElem?_snoc_cases he with old | ⟨rfl, rfl⟩
      · exact table.ended k t e ht old
      · rw [latest, behind, List.getElem?_concat_length] at ht
        obtain rfl := Option.some.inj ht
        exact since
    case next =>
      intro k t t' ht ht'
      obtain ⟨e, he, rest⟩ := table.next k t t' ht ht'
      have bound : k < ends.length := (List.getElem?_eq_some_iff.mp he).1
      exact ⟨e, by rw [List.getElem?_append_left bound, he], rest⟩

/-- Ticks are hardly ever less than an interval apart: one that is late by more than 5 milliseconds
has a whole interval after it, and any other at most 5 milliseconds less. -/
theorem Timetable.spaced (table : Timetable unhindered interval start ticks ends) {k : Nat}
    {t t' : Tick} (h : ticks[k]? = some t) (h' : ticks[k + 1]? = some t') :
    t.taken + interval ≤ t'.taken + 5 ∧ (t.due + 5 < t.taken → t.taken + interval ≤ t'.taken) := by
  obtain ⟨e, -, due_eq, le, -⟩ := table.next k t t' h h'
  have le : t'.due ≤ t'.taken := Nat.le_trans (Nat.le_max_right _ _) le
  rw [due_eq, Tick.next] at le
  split at le
  · exact ⟨by omega, by omega⟩
  · exact ⟨by omega, by omega⟩

/-- Ticks are due one after the other, an interval apart at least. -/
theorem Timetable.due_add_le (table : Timetable unhindered interval start ticks ends) {k : Nat}
    {t t' : Tick} (h : ticks[k]? = some t) (h' : ticks[k + 1]? = some t') :
    t.due + interval ≤ t'.due := by
  obtain ⟨e, -, due_eq, -⟩ := table.next k t t' h h'
  rw [due_eq, Tick.next]
  split <;> omega

/-- **A refresh that has taken too long is made up for once**, unless the interval is shorter than
the time that a tick may be late. -/
theorem Timetable.catchesUpOnce (table : Timetable unhindered interval start ticks ends)
    (long : 5 ≤ interval) : CatchesUpOnce ticks ends := by
  intro j k t e he ht later
  induction j generalizing t with
  | zero => cases later
  | succ j ih =>
    have bound : j + 1 < ticks.length := (List.getElem?_eq_some_iff.mp ht).1
    have before : ticks[j]? = some ticks[j] := List.getElem?_eq_getElem (by omega)
    rcases Nat.lt_or_ge (k + 1) j with farther | next
    · -- the tick before is not due earlier either
      have := ih _ before farther
      have := table.due_add_le before ht
      omega
    · -- the tick before was taken when the refresh had ended
      obtain rfl : j = k + 1 := by omega
      have bound' : k < ends.length := (List.getElem?_eq_some_iff.mp he).1
      have first : ticks[k]? = some ticks[k] := List.getElem?_eq_getElem (by omega)
      obtain ⟨e', he', -, taken, -⟩ := table.next k _ _ first before
      obtain rfl := Option.some.inj (he.symm.trans he')
      obtain ⟨-, -, due_eq, -⟩ := table.next (k + 1) _ _ before ht
      have taken : e ≤ ticks[k + 1].taken := Nat.le_trans (Nat.le_max_left _ _) taken
      rw [due_eq, Tick.next]
      split <;> omega

/-! ### The phases of a worker -/

/-- A worker that goes on within a refresh, or does nothing, stays in its phase as time passes. -/
theorem Phase.later {activity : Activity} {later : Nat}
    (phase : Phase unhindered interval start now ticks ends activity) (le : now ≤ later)
    (soon : unhindered → ∀ due, activity = .idle due → later ≤ max now due) :
    Phase unhindered interval start later ticks ends activity := by
  cases phase with
  | idle level due_eq since before =>
    refine .idle level due_eq (Nat.le_trans since le) ?_
    intro hu
    have := before hu
    have := soon hu _ rfl
    omega
  | busy latest behind due_eq since =>
    exact .busy latest behind due_eq (Nat.le_trans since le)

theorem Phase.onward {due : Nat} {cycle next : Cycle}
    (phase : Phase unhindered interval start now ticks ends (.busy due cycle)) :
    Phase unhindered interval start now ticks ends (.busy due next) := by
  cases phase with
  | busy latest behind due_eq since => exact .busy latest behind due_eq since

theorem Phase.tick {due : Nat} (cycle : Cycle)
    (phase : Phase unhindered interval start now ticks ends (.idle due)) :
    Phase unhindered interval start now (ticks ++ [⟨due, now⟩]) ends
      (.busy (Worker.nextDue interval due now) cycle) := by
  cases phase with
  | idle level due_eq since soon =>
    exact .busy rfl level (Tick.nextDue_eq interval due now) (Nat.le_refl now)

theorem Phase.finish {due : Nat} {cycle : Cycle}
    (phase : Phase unhindered interval start now ticks ends (.busy due cycle)) :
    Phase unhindered interval start now ticks (ends ++ [now]) (.idle due) := by
  cases phase with
  | @busy _ _ earlier t latest behind due_eq since =>
    have last : (ends ++ [now]).getLast?.getD start = now := by
      rw [List.getLast?_append, List.getLast?_singleton]
      rfl
    refine .idle ?_ ?_ ?_ ?_
    · rw [latest, List.length_append, List.length_append, behind]
      rfl
    · rw [latest, List.getLast?_append, List.getLast?_singleton, due_eq]
      rfl
    · exact Nat.le_of_eq last
    · intro _
      exact Nat.le_trans (Nat.le_of_eq last.symm) (Nat.le_max_left _ _)

/-- The worker has had no time to be idle after its tick was due and the last refresh had ended. -/
theorem Phase.next_of_late {activity : Activity}
    (phase : Phase unhindered interval start now ticks ends activity) (hu : unhindered) :
    (start < now → 0 < ticks.length) ∧
      ∀ (k : Nat) (t : Tick) (e : Nat), ticks[k]? = some t → ends[k]? = some e →
        max e (t.next interval) < now → k + 1 < ticks.length := by
  cases phase with
  | busy latest behind due_eq since =>
    have length : ticks.length = ends.length + 1 := by
      rw [latest, List.length_append, List.length_singleton, behind]
    refine ⟨fun _ => by omega, ?_⟩
    intro k t e _ he _
    have bound : k < ends.length := (List.getElem?_eq_some_iff.mp he).1
    omega
  | idle level due_eq since soon =>
    have soon := soon hu
    constructor
    · intro late
      refine Nat.pos_of_ne_zero fun none => ?_
      obtain rfl := List.length_eq_zero_iff.mp none
      obtain rfl := List.length_eq_zero_iff.mp level
      have due_eq : _ = start := due_eq
      have soon : now ≤ max start _ := soon
      omega
    · intro k t e ht he late
      have bound : k < ticks.length := (List.getElem?_eq_some_iff.mp ht).1
      refine Nat.lt_of_le_of_ne bound fun last => ?_
      have ticksLast : ticks.getLast? = some t := by
        rw [List.getLast?_eq_getElem?, ← last]
        exact ht
      have endsLast : ends.getLast? = some e := by
        rw [List.getLast?_eq_getElem?, level, ← last]
        exact he
      rw [ticksLast] at due_eq
      rw [endsLast] at soon
      have due_eq : _ = t.next interval := due_eq
      have soon : now ≤ max e _ := soon
      omega

/-! ### A worker keeps its timetable -/

/-- A worker that has not been asked to stop and keeps its timetable. -/
structure Keeper (unhindered : Prop) (interval start now : Nat) (ticks : List Tick)
    (ends : List Nat) (worker : Worker) : Prop where
  pace : worker.interval = interval
  unasked : worker.channel.asks = false
  table : Timetable unhindered interval start ticks ends
  phase : Phase unhindered interval start now ticks ends worker.activity

/-- A worker that has just started has its first tick at once. -/
theorem keeper_start (unhindered : Prop) (start : Nat) {interval : Nat} (pos : 0 < interval) :
    Keeper unhindered interval start start [] [] (.start start interval) where
  pace := rfl
  unasked := rfl
  table := timetable_nil
  phase := by
    rw [Worker.start, if_neg (Nat.ne_of_gt pos)]
    exact .idle rfl rfl (Nat.le_refl start) fun _ => Nat.le_max_left _ _

/-- A worker that has not stopped is at work. -/
theorem Keeper.isRunning {worker : Worker}
    (keeper : Keeper unhindered interval start now ticks ends worker) :
    worker.isRunning = true := by
  rw [Worker.isRunning, decide_eq_true_iff]
  intro stopped
  have phase := keeper.phase
  rw [stopped] at phase
  cases phase

/-- **What a worker does keeps its timetable**, and so does what others do. -/
theorem Keeper.step {setting : Setting} {w next : World} {index : Nat} {action : Action}
    {worker worker' : Worker}
    (keeper : Keeper unhindered interval start w.catalog.now ticks ends worker)
    (there : w.workers[index]? = some worker) (here : next.workers[index]? = some worker')
    (effect : World.Effect setting w action next)
    (touch : World.Touch setting w index worker action next worker')
    (calm : (Move.mk w action next).Calm index)
    (punctual : unhindered → (Move.mk w action next).Punctual index) :
    Keeper unhindered interval start next.catalog.now
      (ticks ++ ((Move.mk w action next).tick? index).toList)
      (ends ++ ((Move.mk w action next).finish? index).toList) worker' := by
  have time := effect.now_eq
  have phase := keeper.phase
  rw [Move.tick?_eq there here, Move.finish?_eq there here]
  dsimp only
  have unasked := (touch.unasked keeper.isRunning keeper.unasked calm).2
  -- what leaves the worker to what it does lets time pass at most
  have rests : worker'.interval = worker.interval → worker'.activity = worker.activity →
      Keeper unhindered interval start next.catalog.now
        (ticks ++ (Tick.between? w.catalog.now worker.activity worker'.activity).toList)
        (ends ++ (finishBetween? w.catalog.now worker.activity worker'.activity).toList)
        worker' := by
    intro same activity
    rw [activity, Tick.between?_self, finishBetween?_self, Option.toList_none, Option.toList_none,
      List.append_nil, List.append_nil]
    refine ⟨same.trans keeper.pace, unasked, keeper.table, ?_⟩
    rw [activity]
    refine phase.later (by omega) ?_
    intro hu due idle
    exact (Move.punctual_iff there).mp (punctual hu) due (by rw [Worker.due?, idle])
  cases touch with
  | turn turn =>
    have now : next.catalog.now = w.catalog.now := time
    rw [now] at rests ⊢
    generalize next.catalog = s at turn
    cases turn with
    | @tick due idle passed =>
      rw [idle] at phase ⊢
      simp only [Tick.between?, finishBetween?, Option.toList_some, Option.toList_none,
        List.append_nil]
      refine ⟨keeper.pace, unasked, keeper.table.tick phase passed, ?_⟩
      rw [← keeper.pace] at phase ⊢
      exact phase.tick _
    | onward busy onward =>
      rw [busy] at phase ⊢
      simp only [Tick.between?, finishBetween?, Option.toList_none, List.append_nil]
      exact ⟨keeper.pace, unasked, keeper.table, phase.onward⟩
    | ended busy ending =>
      rw [busy] at phase ⊢
      simp only [Tick.between?, finishBetween?, Option.toList_none, List.append_nil]
      exact ⟨keeper.pace, unasked, keeper.table.finish phase, phase.finish⟩
    | look idle fresh value => exact rests rfl rfl
    | stop idle told =>
      have asked := Channel.asks_of_tells told
      rw [keeper.unasked] at asked
      cases asked
  | sent value same =>
    rw [Worker.send, if_pos keeper.isRunning] at rests ⊢
    exact rests rfl rfl
  | closed same => exact rests rfl rfl
  | aside aside => exact rests rfl rfl

end

namespace Run

variable {unhindered : Prop} {setting : Setting} {v w : World} {moves : List Move}
  {index interval : Nat}

/-- **A worker keeps its timetable** as long as nobody asks it to stop. -/
theorem keeps (h : Run setting v moves w) (pos : 0 < interval)
    (hired : v.workers[index]? = some (.start v.catalog.now interval))
    (calm : ∀ m ∈ moves, m.Calm index)
    (punctual : unhindered → ∀ m ∈ moves, m.Punctual index) :
    ∃ worker, w.workers[index]? = some worker ∧
      Keeper unhindered interval v.catalog.now w.catalog.now (ticks index moves)
        (finishes index moves) worker := by
  induction h with
  | refl => exact ⟨_, hired, keeper_start unhindered v.catalog.now pos⟩
  | @snoc moves v' next action run act ih =>
    obtain ⟨calm, last⟩ := List.forall_mem_append.mp calm
    have punctual := fun hu => List.forall_mem_append.mp (punctual hu)
    obtain ⟨worker, there, keeper⟩ := ih calm fun hu => (punctual hu).1
    obtain ⟨worker', here, touch⟩ := World.touch_of_act? there act
    refine ⟨worker', here, ?_⟩
    rw [ticks_snoc, finishes_snoc]
    exact keeper.step there here (World.effect_of_act? act) touch
      (last _ List.mem_cons_self) fun hu => (punctual hu).2 _ List.mem_cons_self

/-- **The timetable of a worker.**  Whatever its refreshes come to and whatever else happens, a
worker that nobody asks to stop refreshes the catalog at once and then again and again, one refresh
at a time, each when its tick is due and the one before has ended. -/
theorem timetable (h : Run setting v moves w) (pos : 0 < interval)
    (hired : v.workers[index]? = some (.start v.catalog.now interval))
    (calm : ∀ m ∈ moves, m.Calm index) :
    (∃ worker, w.workers[index]? = some worker ∧ worker.isRunning = true) ∧
    Timetable (∀ m ∈ moves, m.Punctual index) interval v.catalog.now (ticks index moves)
      (finishes index moves) ∧
    -- a refresh begins with a call, and ends with what its last answer makes of the catalog
    (∀ m ∈ moves, ∀ t, m.tick? index = some t → t.taken = m.before.catalog.now ∧
      m.after.catalog = (m.before.catalog.call setting.terms).1) ∧
    (∀ m ∈ moves, ∀ time, m.finish? index = some time → time = m.before.catalog.now ∧
      ∃ e, m.ending? setting = some e ∧
        m.after.catalog = m.before.catalog.conclude e.outcome) ∧
    -- one that takes too long is made up for once, if the interval is not shorter than the time that
    -- a tick may be late, and in any case none comes hard upon another one
    (5 ≤ interval → CatchesUpOnce (ticks index moves) (finishes index moves)) ∧
    (∀ (k : Nat) (t t' : Tick), (ticks index moves)[k]? = some t →
      (ticks index moves)[k + 1]? = some t' →
        t.taken + interval ≤ t'.taken + 5 ∧ (t.due + 5 < t.taken → t.taken + interval ≤ t'.taken)) ∧
    -- and none is left out
    ((∀ m ∈ moves, m.Punctual index) →
      (v.catalog.now < w.catalog.now → 0 < (ticks index moves).length) ∧
      ∀ (k : Nat) (t : Tick) (e : Nat), (ticks index moves)[k]? = some t →
        (finishes index moves)[k]? = some e → max e (t.next interval) < w.catalog.now →
        k + 1 < (ticks index moves).length) ∧
    -- all this is the same if nothing is sent
    (Run setting v (muted index .new moves) (w.mute index .new) ∧
      ticks index (muted index .new moves) = ticks index moves ∧
      finishes index (muted index .new moves) = finishes index moves) ∧
    -- and it can always go on
    ∀ n, ∃ later next, Run setting w later next ∧ (∀ m ∈ later, m.Diligent index) ∧
      (ticks index later).length = n := by
  obtain ⟨worker, there, keeper⟩ := h.keeps pos hired calm id
  have own : ∀ m ∈ moves, m.before.act? setting m.action = some m.after := by
    intro m hm
    obtain ⟨-, -, -, -, act, -⟩ := h.of_mem hm
    exact act
  refine ⟨⟨worker, there, keeper.isRunning⟩, keeper.table, ?_, ?_, keeper.table.catchesUpOnce, ?_,
    ?_, ?_, ?_⟩
  · intro m hm t ht
    obtain ⟨taken, -, call⟩ := Move.call_of_tick? (own m hm) ht
    exact ⟨taken, call⟩
  · intro m hm time ht
    exact Move.ending_of_finish? (own m hm) ht
  · intro k t t' ht ht'
    exact keeper.table.spaced ht ht'
  · intro punctual
    exact keeper.phase.next_of_late punctual
  · have quiet := h.mute hired there keeper.isRunning .new
    have same : v.mute index .new = v := World.mute_eq_self hired
    rwa [same] at quiet
  · intro n
    exact World.exists_ticks setting n there keeper.isRunning

end Run

/-- A supplier that is in trouble at first, and takes its time to say so. -/
def sluggish : Catalog.Supplier := .ofList [⟨.error (.status 500), 45⟩, ⟨.ok [], 1⟩]

/-- A refresh takes more than two intervals and fails, and `false` is sent meanwhile: it is followed
by one refresh that is late, and the one after that is on time. -/
theorem Run.timetable_sluggish : ∃ moves w,
    Run (.cached ⟨sluggish, .none⟩) { World.initial with workers := [.start 0 20] } moves w ∧
    .signal 0 false ∈ moves.map Move.action ∧ (∀ m ∈ moves, m.Punctual 0) ∧
    ticks 0 moves = [⟨0, 0⟩, ⟨20, 45⟩, ⟨65, 65⟩] ∧ finishes 0 moves = [45, 46] ∧
    (∃ worker, w.workers[0]? = some worker ∧ worker.isRunning = true) ∧
    Timetable (∀ m ∈ moves, m.Punctual 0) 20 0 (ticks 0 moves) (finishes 0 moves) ∧
    CatchesUpOnce (ticks 0 moves) (finishes 0 moves) := by
  have evaluated : (({ World.initial with workers := [.start 0 20] } : World).play?
      (.cached ⟨sluggish, .none⟩)
      [.worker 0 .ticks, .signal 0 false, .wait 45, .worker 0 .ticks, .worker 0 .channel,
        .worker 0 .ticks, .wait 1, .worker 0 .ticks, .wait 19, .worker 0 .ticks]).any
      (fun result => decide ((∀ m ∈ result.1, m.Calm 0) ∧
        .signal 0 false ∈ result.1.map Move.action ∧ (∀ m ∈ result.1, m.Punctual 0) ∧
        ticks 0 result.1 = [⟨0, 0⟩, ⟨20, 45⟩, ⟨65, 65⟩] ∧
        finishes 0 result.1 = [45, 46])) = true := by
    decide +kernel
  obtain ⟨moves, w, run, shown⟩ := Run.exists_of_play? evaluated
  obtain ⟨calm, sent, punctual, began, ended⟩ := of_decide_eq_true shown
  have hired : ({ World.initial with workers := [.start 0 20] } : World).workers[0]? =
      some (.start 0 20) := rfl
  obtain ⟨runs, table, -, -, once, -⟩ := run.timetable (by decide) hired calm
  exact ⟨moves, w, run, sent, punctual, began, ended, runs, table, once (by decide)⟩

/-- A worker that nobody asks to stop and that is never kept from going on makes up for a refresh
that takes too long with one other refresh at most. -/
def NeverBursts (setting : Setting) (interval : Nat) : Prop :=
  ∀ v w moves index, Run setting v moves w →
    v.workers[index]? = some (.start v.catalog.now interval) → (∀ m ∈ moves, m.Calm index) →
    (∀ m ∈ moves, m.Punctual index) → CatchesUpOnce (ticks index moves) (finishes index moves)

/-- A supplier that takes its time at first and then none. -/
def brisk : Catalog.Supplier := .ofList [⟨.ok [], 7⟩, ⟨.ok [], 0⟩]

/-- **A refresh can be made up for more than once** if the interval is very short.  Of the three
ticks that the first refresh has missed, none is late enough to put off the next one. -/
theorem not_neverBursts_brisk : ¬ NeverBursts (.cached ⟨brisk, .none⟩) 2 := by
  intro never
  have evaluated : (({ World.initial with workers := [.start 0 2] } : World).play?
      (.cached ⟨brisk, .none⟩)
      [.worker 0 .ticks, .wait 7, .worker 0 .ticks, .worker 0 .ticks, .worker 0 .ticks,
        .worker 0 .ticks, .worker 0 .ticks, .worker 0 .ticks]).any
      (fun result => decide ((∀ m ∈ result.1, m.Calm 0) ∧ (∀ m ∈ result.1, m.Punctual 0) ∧
        ticks 0 result.1 = [⟨0, 0⟩, ⟨2, 7⟩, ⟨4, 7⟩, ⟨6, 7⟩] ∧
        finishes 0 result.1 = [7, 7, 7])) = true := by
    decide +kernel
  obtain ⟨moves, w, run, shown⟩ := Run.exists_of_play? evaluated
  obtain ⟨calm, punctual, began, ended⟩ := of_decide_eq_true shown
  have once := never _ w moves 0 run rfl calm punctual
  rw [began, ended] at once
  have late : 7 ≤ 6 := once 3 0 ⟨6, 7⟩ 7 rfl rfl (by decide)
  omega

end ProductSegments.Service
