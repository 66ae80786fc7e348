import ProductSegments.Proofs.Service.Event

/-!
# The queue of readers

Readers who find no products stand in a queue, and one of them at a time has its turn.  What the
catalog keeps of the queue, the tickets, always agrees with what the clients are doing.

## Main definitions

* `Service.World.waiting` — the tickets of the clients who wait for their turn.
* `Service.World.loads` — how many readers refresh the catalog.
* `Service.World.Orderly` — clients and queue agree.

## Main results

* `Service.World.Effect.orderly` — every action keeps a service orderly.
* `Service.Run.orderly` — a service that began with nobody is orderly.
-/

namespace ProductSegments

open Catalog (State Visit Cycle Worker Outcome Ending)

/-! ### The line of tickets -/

namespace Catalog

/-- The tickets of the reader that has its turn and of those behind it. -/
def State.line (s : State) : List Nat := s.holder.toList ++ s.queue

/-- Nobody has come to the line or left it. -/
structure State.SameLine (s s' : State) : Prop where
  holder : s'.holder = s.holder
  queue : s'.queue = s.queue
  tickets : s'.tickets = s.tickets

theorem State.SameLine.line {s s' : State} (h : s.SameLine s') : s'.line = s.line := by
  unfold State.line
  rw [h.holder, h.queue]

theorem State.sameLine_conclude (s : State) (outcome : Outcome) :
    s.SameLine (s.conclude outcome) :=
  ⟨holder_conclude s outcome, queue_conclude s outcome, tickets_conclude s outcome⟩

theorem Cycle.Onward.sameLine {terms : Terms} {s s' : State} {cycle next : Cycle}
    (h : Cycle.Onward terms s cycle s' next) : s.SameLine s' := by
  cases h with
  | rest due repeats => exact ⟨rfl, rfl, rfl⟩
  | again passed => exact ⟨rfl, rfl, rfl⟩

/-- Workers do not read. -/
theorem Worker.Effect.sameLine {terms : Terms} {s s' : State} {worker worker' : Worker}
    (h : Worker.Effect terms s worker s' worker') : s.SameLine s' := by
  cases h with
  | tick idle passed => exact ⟨rfl, rfl, rfl⟩
  | onward busy onward => exact onward.sameLine
  | ended busy ending => exact s.sameLine_conclude _
  | observe before after => exact ⟨rfl, rfl, rfl⟩

end Catalog

namespace Service

/-! ### Readers among the clients -/

/-- The ticket of a reader that waits for its turn. -/
def Client.ticket? : Client → Option Nat
  | .visiting _ (.queued ticket) => some ticket
  | _ => none

/-- The client is a reader that refreshes the catalog. -/
def Client.isLoading : Client → Bool
  | .visiting _ (.loading _) => true
  | _ => false

theorem Client.eq_queued_of_ticket? {c : Client} {ticket : Nat} (h : c.ticket? = some ticket) :
    ∃ purpose, c = .visiting purpose (.queued ticket) := by
  unfold ticket? at h
  split at h
  · next purpose t =>
    obtain rfl := Option.some.inj h
    exact ⟨purpose, rfl⟩
  · cases h

theorem Client.eq_loading_of_isLoading {c : Client} (h : c.isLoading = true) :
    ∃ purpose cycle, c = .visiting purpose (.loading cycle) := by
  unfold isLoading at h
  split at h
  · next purpose cycle => exact ⟨purpose, cycle, rfl⟩
  · cases h

/-- The tickets of the clients who wait for their turn, in the order in which they came. -/
def World.waiting (w : World) : List Nat := w.clients.filterMap Client.ticket?

/-- How many readers refresh the catalog. -/
def World.loads (w : World) : Nat := w.clients.countP Client.isLoading

/-- A list around one of its members, with that member replaced. -/
theorem exists_around_of_getElem? {α : Type} {l : List α} {i : Nat} {a : α} (h : l[i]? = some a) :
    ∃ front back, l = front ++ a :: back ∧ front.length = i ∧
      ∀ b, l.set i b = front ++ b :: back := by
  induction l generalizing i with
  | nil => cases h
  | cons x xs ih =>
    cases i with
    | zero =>
      obtain rfl := Option.some.inj h
      exact ⟨[], xs, rfl, rfl, fun b => rfl⟩
    | succ i =>
      obtain ⟨front, back, hl, hi, hset⟩ := ih h
      refine ⟨x :: front, back, by rw [hl]; rfl, by rw [List.length_cons, hi], ?_⟩
      intro b
      rw [List.set_cons_succ, hset b]
      rfl

section Replace

variable {clients : List Client} {index : Nat} {c c' : Client}

theorem filterMap_ticket?_set (h : clients[index]? = some c) (same : c'.ticket? = c.ticket?) :
    (clients.set index c').filterMap Client.ticket? = clients.filterMap Client.ticket? := by
  obtain ⟨front, back, rfl, -, hset⟩ := exists_around_of_getElem? h
  rw [hset c', List.filterMap_append, List.filterMap_append, List.filterMap_cons,
    List.filterMap_cons, same]

/-- When the first in the queue goes, the others are left. -/
theorem filterMap_ticket?_set_none {ticket : Nat} {queue : List Nat}
    (h : clients[index]? = some c) (before : c.ticket? = some ticket) (after : c'.ticket? = none)
    (all : clients.filterMap Client.ticket? = ticket :: queue) (nodup : (ticket :: queue).Nodup) :
    (clients.set index c').filterMap Client.ticket? = queue := by
  obtain ⟨front, back, rfl, -, hset⟩ := exists_around_of_getElem? h
  rw [List.filterMap_append, List.filterMap_cons, before] at all
  rw [hset c', List.filterMap_append, List.filterMap_cons, after]
  -- nobody with a ticket stands in front, or the same ticket would be there twice
  cases hf : front.filterMap Client.ticket? with
  | nil =>
    rw [hf] at all
    exact (List.cons.inj all).2
  | cons t ts =>
    rw [hf] at all
    obtain ⟨rfl, rfl⟩ := List.cons.inj all
    have twice : t ∈ ts ++ t :: back.filterMap Client.ticket? := by simp
    exact absurd twice (List.nodup_cons.mp nodup).1

theorem countP_isLoading_set (h : clients[index]? = some c) :
    (clients.set index c').countP Client.isLoading + c.isLoading.toNat =
      clients.countP Client.isLoading + c'.isLoading.toNat := by
  obtain ⟨front, back, rfl, -, hset⟩ := exists_around_of_getElem? h
  rw [hset c', List.countP_append, List.countP_append, List.countP_cons, List.countP_cons]
  cases c.isLoading <;> cases c'.isLoading <;> simp <;> omega

end Replace

/-! ### Orderly services -/

namespace World

/-- Clients and queue agree: as long as a reader refreshes, it alone has the turn and the others are
in the queue, and otherwise whoever has the turn is still to take it. -/
structure Orderly (w : World) : Prop where
  turn : (w.loads = 1 ∧ w.catalog.holder ≠ none ∧ w.waiting = w.catalog.queue) ∨
    (w.loads = 0 ∧ w.waiting = w.catalog.line)
  /-- Nobody waits for a turn that nobody has. -/
  free : w.catalog.holder = none → w.catalog.queue = []
  fresh : ∀ ticket ∈ w.catalog.line, ticket < w.catalog.tickets
  nodup : w.catalog.line.Nodup

variable {setting : Setting} {w next : World} {action : Action}

theorem orderly_initial : World.initial.Orderly := by
  constructor
  · exact .inr ⟨rfl, rfl⟩
  · intro _
    rfl
  · intro ticket h
    cases h
  · exact List.nodup_nil

namespace Orderly

/-- At most one reader refreshes at a time. -/
theorem loads_le_one (h : w.Orderly) : w.loads ≤ 1 := by
  rcases h.turn with ⟨one, -, -⟩ | ⟨zero, -⟩ <;> omega

/-- A free turn is nobody's, and nobody waits for it. -/
theorem idle_of_free (h : w.Orderly) (free : w.catalog.holder = none) :
    w.loads = 0 ∧ w.waiting = [] := by
  rcases h.turn with ⟨-, taken, -⟩ | ⟨zero, waiting⟩
  · exact absurd free taken
  · refine ⟨zero, ?_⟩
    rw [waiting, State.line, free, h.free free]
    rfl

/-- A reader in the queue whose turn has come is the first of all, and nobody refreshes. -/
theorem first_of_turn (h : w.Orderly) {ticket : Nat} (mine : ticket ∈ w.waiting)
    (turn : w.catalog.holder = some ticket) :
    w.loads = 0 ∧ w.waiting = ticket :: w.catalog.queue := by
  have line : w.catalog.line = ticket :: w.catalog.queue := by
    rw [State.line, turn]
    rfl
  rcases h.turn with ⟨-, -, waiting⟩ | ⟨zero, waiting⟩
  · -- whoever has the turn is not in the queue behind it
    rw [waiting] at mine
    have nodup := h.nodup
    rw [line] at nodup
    exact absurd mine (List.nodup_cons.mp nodup).1
  · exact ⟨zero, waiting.trans line⟩

theorem of_same (h : w.Orderly) (line : w.catalog.SameLine next.catalog)
    (loads : next.loads = w.loads) (waiting : next.waiting = w.waiting) : next.Orderly := by
  constructor
  · rw [loads, waiting, line.line, line.holder, line.queue]
    exact h.turn
  · rw [line.holder, line.queue]
    exact h.free
  · rw [line.line, line.tickets]
    exact h.fresh
  · rw [line.line]
    exact h.nodup

/-- The first in the queue gets the turn. -/
theorem release (h : w.Orderly) (holder : next.catalog.holder = w.catalog.queue.head?)
    (queue : next.catalog.queue = w.catalog.queue.tail)
    (tickets : next.catalog.tickets = w.catalog.tickets) (loads : next.loads = 0)
    (waiting : next.waiting = w.catalog.queue) : next.Orderly := by
  have line : next.catalog.line = w.catalog.queue := by
    rw [State.line, holder, queue]
    cases w.catalog.queue <;> rfl
  constructor
  · right
    exact ⟨loads, waiting.trans line.symm⟩
  · intro free
    rw [holder, List.head?_eq_none_iff] at free
    rw [queue, free]
    rfl
  · intro ticket ht
    rw [line] at ht
    rw [tickets]
    exact h.fresh ticket (List.mem_append_right _ ht)
  · rw [line]
    exact (List.nodup_append.mp h.nodup).2.1

end Orderly

/-! ### What actions do to the queue -/

theorem waiting_append {clients : List Client} (h : next.clients = w.clients ++ clients) :
    next.waiting = w.waiting ++ clients.filterMap Client.ticket? := by
  rw [waiting, h, List.filterMap_append]
  rfl

theorem loads_append {clients : List Client} (h : next.clients = w.clients ++ clients) :
    next.loads = w.loads + clients.countP Client.isLoading := by
  rw [loads, h, List.countP_append]
  rfl

/-- Somebody comes in. -/
theorem Orderly.opening (h : w.Orderly) {purpose : Purpose} {s : State} {result : Visit ⊕ Outcome}
    (opening : Opening setting purpose w.catalog s result) (metrics : Metrics)
    (catalog : next.catalog = { s with metrics })
    (clients : next.clients = w.clients ++ [.after setting purpose result]) : next.Orderly := by
  have waiting := waiting_append clients
  have loads := loads_append clients
  -- whoever does not read stays out of the queue
  have aside : w.catalog.SameLine s → (Client.after setting purpose result).ticket? = none →
      (Client.after setting purpose result).isLoading = false → next.Orderly := by
    intro line noTicket notLoading
    rw [List.filterMap_cons, noTicket] at waiting
    rw [List.countP_singleton, notLoading] at loads
    refine h.of_same ?_ loads (waiting.trans (List.append_nil _))
    rw [catalog]
    exact ⟨line.holder, line.queue, line.tickets⟩
  cases opening with
  | ask direct => exact aside ⟨rfl, rfl, rfl⟩ rfl rfl
  | refresh cached refresh => exact aside ⟨rfl, rfl, rfl⟩ rfl rfl
  | served cached read kept => exact aside ⟨rfl, rfl, rfl⟩ rfl rfl
  | turn cached read cold free =>
    obtain ⟨zero, none⟩ := h.idle_of_free free
    have line : next.catalog.line = [w.catalog.tickets] := by
      rw [catalog]
      show w.catalog.tickets :: w.catalog.queue = _
      rw [h.free free]
    constructor
    · left
      rw [waiting, loads, zero, none, catalog]
      exact ⟨rfl, Option.some_ne_none _, (h.free free).symm⟩
    · intro no
      rw [catalog] at no
      cases no
    · intro ticket ht
      rw [line, List.mem_singleton] at ht
      rw [ht, catalog]
      exact Nat.lt_succ_self _
    · rw [line]
      exact List.pairwise_singleton _ _
  | @queue holder cached read cold taken =>
    have line : next.catalog.line = w.catalog.line ++ [w.catalog.tickets] := by
      rw [catalog]
      exact (List.append_assoc ..).symm
    constructor
    · rw [waiting, loads, line, catalog]
      rcases h.turn with ⟨one, some, hw⟩ | ⟨zero, hw⟩
      · left
        exact ⟨one, some, by rw [hw]; rfl⟩
      · right
        exact ⟨zero, by rw [hw]; rfl⟩
    · intro no
      rw [catalog] at no
      exact absurd (taken.symm.trans no) (Option.some_ne_none _)
    · intro ticket ht
      rw [line, List.mem_append, List.mem_singleton] at ht
      rw [catalog]
      show ticket < w.catalog.tickets + 1
      rcases ht with ht | rfl
      · exact Nat.lt_succ_of_lt (h.fresh ticket ht)
      · exact Nat.lt_succ_self _
    · -- a new ticket is higher than all others
      rw [line, List.nodup_append]
      refine ⟨h.nodup, List.pairwise_singleton _ _, ?_⟩
      intro ticket ht new hn
      rw [List.mem_singleton] at hn
      have lt := h.fresh ticket ht
      omega

/-- A client goes on. -/
theorem Orderly.visit (h : w.Orderly) {index : Nat} {purpose : Purpose} {visit : Visit} {s : State}
    {result : Visit ⊕ Outcome} (client : w.clients[index]? = some (.visiting purpose visit))
    (effect : Visit.Effect setting.terms w.catalog visit s result) (metrics : Metrics)
    (catalog : next.catalog = { s with metrics })
    (clients : next.clients = w.clients.set index (.after setting purpose result)) :
    next.Orderly := by
  have waiting : next.waiting =
      (w.clients.set index (.after setting purpose result)).filterMap Client.ticket? := by
    rw [World.waiting, clients]
  have loads : next.loads + (Client.visiting purpose visit).isLoading.toNat =
      w.loads + (Client.after setting purpose result).isLoading.toNat := by
    rw [World.loads, clients]
    exact countP_isLoading_set client
  have mine : ∀ ticket, visit = .queued ticket → ticket ∈ w.waiting := by
    rintro ticket rfl
    exact List.mem_filterMap.mpr ⟨_, List.mem_of_getElem? client, rfl⟩
  -- whoever waits or refreshes as before keeps its place
  have stays : w.catalog.SameLine s →
      (Client.after setting purpose result).ticket? = (Client.visiting purpose visit).ticket? →
      (Client.after setting purpose result).isLoading = (Client.visiting purpose visit).isLoading →
      next.Orderly := by
    intro line sameTicket sameLoading
    rw [sameLoading] at loads
    refine h.of_same ?_ (Nat.add_right_cancel loads)
      (waiting.trans (filterMap_ticket?_set client sameTicket))
    rw [catalog]
    exact ⟨line.holder, line.queue, line.tickets⟩
  cases effect with
  | @served ticket products turn kept =>
    -- the first in the queue leaves, and the next one gets its turn
    obtain ⟨zero, first⟩ := h.first_of_turn (mine ticket rfl) turn
    have left : next.waiting = w.catalog.queue := by
      rw [waiting]
      refine filterMap_ticket?_set_none client rfl rfl first ?_
      have nodup := h.nodup
      rw [State.line, turn] at nodup
      exact nodup
    refine h.release ?_ ?_ ?_ (loads.trans zero) left
    all_goals rw [catalog]; rfl
  | @turn ticket turn cold =>
    -- the first in the queue leaves it but keeps its turn
    obtain ⟨zero, first⟩ := h.first_of_turn (mine ticket rfl) turn
    have nodup := h.nodup
    rw [State.line, turn] at nodup
    have left : next.waiting = w.catalog.queue := by
      rw [waiting]
      exact filterMap_ticket?_set_none client rfl rfl first nodup
    have one : next.loads = 1 := by
      rw [zero] at loads
      exact loads
    constructor
    · left
      rw [left, catalog]
      refine ⟨one, ?_, rfl⟩
      rw [show State.holder { (w.catalog.call setting.terms).1 with metrics } = some ticket from turn]
      exact Option.some_ne_none _
    · intro free
      rw [catalog] at free ⊢
      exact h.free free
    · rw [catalog]
      exact h.fresh
    · rw [catalog]
      exact h.nodup
  | load onward => exact stays onward.sameLine rfl rfl
  | @loaded cycle e ending =>
    -- the one who refreshes is the only one, so it has the turn and gives it on
    have one : next.loads + 1 = w.loads := loads
    rcases h.turn with ⟨hone, -, hw⟩ | ⟨hzero, -⟩
    · have left : next.waiting = w.catalog.queue :=
        (waiting.trans (filterMap_ticket?_set client rfl)).trans hw
      refine h.release ?_ ?_ ?_ (by omega) left
      all_goals rw [catalog]; simp
    · omega
  | refresh onward => exact stays onward.sameLine rfl rfl
  | refreshed ending => exact stays (w.catalog.sameLine_conclude _) rfl rfl
  | asked due => exact stays ⟨rfl, rfl, rfl⟩ rfl rfl

/-- Every action keeps a service orderly. -/
theorem Effect.orderly (effect : Effect setting w action next) (h : w.Orderly) : next.Orderly := by
  cases effect with
  | consult intent opening begun metrics ids log => exact h.opening opening metrics rfl rfl
  | dispatch intent reply metrics ids =>
    refine h.of_same ⟨rfl, rfl, rfl⟩ ?_ ?_
    · exact @loads_append w _ [.answered reply] rfl
    · exact (@waiting_append w _ [.answered reply] rfl).trans (List.append_nil _)
  | visit client effect step metrics log => exact h.visit client effect metrics rfl rfl
  | work worker? effect => exact h.of_same effect.sameLine rfl rfl
  | start interval => exact h.of_same ⟨rfl, rfl, rfl⟩ rfl rfl
  | signal index value => exact h.of_same ⟨rfl, rfl, rfl⟩ rfl rfl
  | close index => exact h.of_same ⟨rfl, rfl, rfl⟩ rfl rfl
  | wait duration => exact h.of_same ⟨rfl, rfl, rfl⟩ rfl rfl

end World

/-- **Clients and queue agree** in every run that begins with nobody. -/
theorem Run.orderly {setting : Setting} {w : World} {moves : List Move}
    (h : Run setting .initial moves w) : w.Orderly :=
  h.invariant World.orderly_initial fun orderly effect => effect.orderly orderly

end Service

end ProductSegments
