import ProductSegments.Proofs.Service.Progress

/-!
# Readers of a cold catalog

Readers who find no products while nobody else refreshes are served in the order in which they came.
Each refreshes when its turn comes, and is given the failure of its own refresh.  The first refresh
that succeeds is the last one: its reader and all readers behind it are given its products.

Until then the service is *cold*: those who have come first have failed, the next one refreshes or
is about to, and the others stand behind it.  From then on it is *warm*, and nobody refreshes.

## Main definitions

* `Service.World.IsCold` — nothing is kept, and nobody waits.
* `Service.Move.IsQuiet` — nobody comes but readers, and nobody else refreshes.
* `Service.Cold`, `Service.Warm` — the two phases.

## Main results

* `Service.Cold.step`, `Service.Warm.step` — what a quiet move does in either phase.
* `Service.Run.coalesced` — what the readers are given.
* `Service.Run.exists_return` — whoever came and waits no longer has been given something.
-/

namespace ProductSegments

open Catalog (State Visit Cycle Worker Outcome Ending Terms)

namespace Service

/-! ### Quiet runs -/

/-- Nothing is kept, and nobody waits. -/
structure World.IsCold (w : World) : Prop where
  snapshot : w.catalog.snapshot = none
  answered : ∀ c ∈ w.clients, c.isAnswered = true

/-- Nobody comes but readers, and workers leave the catalog alone. -/
def Move.IsQuiet (setting : Setting) (m : Move) : Prop :=
  match m.action with
  | .enter arrival => ∃ purpose, arrival.purpose? setting m.before = some purpose ∧
      purpose.isRefresh = false
  | .worker .. => m.after.catalog = m.before.catalog
  | _ => True

/-- The client is a reader that waits for its turn. -/
def Client.isQueued (c : Client) : Bool := c.ticket?.isSome

theorem Client.eq_queued_of_isQueued {c : Client} (h : c.isQueued = true) :
    ∃ purpose ticket, c = .visiting purpose (.queued ticket) := by
  obtain ⟨ticket, ht⟩ := Option.isSome_iff_exists.mp h
  obtain ⟨purpose, hc⟩ := eq_queued_of_ticket? ht
  exact ⟨purpose, ticket, hc⟩

/-- The client does not refresh: it waits for its turn or has been answered. -/
def Client.isIdle (c : Client) : Bool := c.isQueued || c.isAnswered

/-- The clients from the one on whose turn it is, when `count` calls have begun and its refresh
begins with the call `first`. -/
inductive Front (terms : Terms) (first count : Nat) : List Client → Prop where
  | nobody (next : count = first) : Front terms first count []
  /-- Its turn has come but it has not taken it. -/
  | queued {front : Client} {behind : List Client} (front_queued : front.isQueued = true)
      (queued : ∀ c ∈ behind, c.isQueued = true) (next : count = first) :
      Front terms first count (front :: behind)
  /-- It refreshes. -/
  | loading {purpose : Purpose} {cycle : Cycle} {behind : List Client}
      (course : cycle.OnCourse terms first count) (queued : ∀ c ∈ behind, c.isQueued = true) :
      Front terms first count (.visiting purpose (.loading cycle) :: behind)

/-- The refreshes of the first `j` readers fail. -/
def Fail (terms : Terms) (base j : Nat) : Prop :=
  ∀ i < j, (terms.refreshAt base i).outcome.toOption = none

/-- Of the readers who came after `before` clients and `base` calls, the first `j` have failed; it
is the turn of the next one, and the others stand behind it. -/
structure Cold (setting : Setting) (before base j : Nat) (w : World) : Prop where
  snapshot : w.catalog.snapshot = none
  fail : Fail setting.terms base j
  line : ∃ done rest, w.clients = done ++ rest ∧ done.length = before + j ∧
    (∀ c ∈ done, c.isAnswered = true) ∧
    Front setting.terms (setting.terms.firstCall base j) w.catalog.calls.length rest

/-- Of the readers who came after `before` clients and `base` calls, the first `k` have failed and
the next one has succeeded; no other one refreshes. -/
structure Warm (setting : Setting) (before base k : Nat) (w : World) : Prop where
  snapshot : w.catalog.snapshot = (setting.terms.refreshAt base k).outcome.toOption
  succeeds : w.catalog.snapshot ≠ none
  fail : Fail setting.terms base k
  calls : w.catalog.calls.length = setting.terms.firstCall base (k + 1)
  line : ∃ done rest, w.clients = done ++ rest ∧ done.length = before + (k + 1) ∧
    (∀ c ∈ done, c.isAnswered = true) ∧ ∀ c ∈ rest, c.isIdle = true

variable {setting : Setting} {w next : World} {action : Action} {moves : List Move}
  {before base : Nat}

/-! ### Who stands where -/

/-- A client that waits is not among those who have been answered. -/
theorem exists_of_visiting {done rest : List Client} {index : Nat} {purpose : Purpose}
    {visit : Visit} (answered : ∀ c ∈ done, c.isAnswered = true)
    (client : (done ++ rest)[index]? = some (.visiting purpose visit)) :
    ∃ x, index = done.length + x ∧ rest[x]? = some (.visiting purpose visit) ∧
      ∀ c, (done ++ rest).set index c = done ++ rest.set x c := by
  have ge : done.length ≤ index := by
    refine Nat.le_of_not_lt ?_
    intro lt
    rw [List.getElem?_append_left lt] at client
    have waits := answered _ (List.mem_of_getElem? client)
    cases waits
  refine ⟨index - done.length, by omega, ?_, ?_⟩
  · rw [← List.getElem?_append_right ge]
    exact client
  · intro c
    exact List.set_append_right index c ge

/-- Nobody's turn comes who stands behind somebody that refreshes or waits. -/
theorem World.Orderly.not_turn_behind (h : w.Orderly) {done behind : List Client} {front : Client}
    (clients : w.clients = done ++ front :: behind)
    (busy : front.isLoading = true ∨ front.isQueued = true) {purpose : Purpose} {ticket : Nat}
    (member : .visiting purpose (.queued ticket) ∈ behind) :
    w.catalog.holder ≠ some ticket := by
  intro turn
  have inBehind : ticket ∈ behind.filterMap Client.ticket? :=
    List.mem_filterMap.mpr ⟨_, member, rfl⟩
  have waiting : w.waiting =
      done.filterMap Client.ticket? ++ (front :: behind).filterMap Client.ticket? := by
    rw [World.waiting, clients, List.filterMap_append]
  have mine : ticket ∈ w.waiting := by
    rw [waiting]
    refine List.mem_append_right _ ?_
    exact List.mem_filterMap.mpr ⟨_, List.mem_cons_of_mem _ member, rfl⟩
  obtain ⟨zero, first⟩ := h.first_of_turn mine turn
  rcases busy with loading | queued
  · -- then two readers would have the turn
    have one : 0 < w.clients.countP Client.isLoading := by
      refine List.countP_pos_iff.mpr ⟨front, ?_, loading⟩
      rw [clients]
      exact List.mem_append_right _ List.mem_cons_self
    have none : w.clients.countP Client.isLoading = 0 := zero
    omega
  · obtain ⟨t, ht⟩ := Option.isSome_iff_exists.mp queued
    rw [List.filterMap_cons, ht] at waiting
    have nodup := h.nodup
    rw [State.line, turn] at nodup
    have notIn : ticket ∉ w.catalog.queue := (List.nodup_cons.mp nodup).1
    rw [waiting] at first
    -- the tickets of those in front come before those behind
    cases hd : done.filterMap Client.ticket? with
    | nil =>
      rw [hd] at first
      obtain ⟨-, queue⟩ := List.cons.inj first
      rw [← queue] at notIn
      exact notIn inBehind
    | cons d ds =>
      rw [hd] at first
      obtain ⟨-, queue⟩ := List.cons.inj first
      rw [← queue] at notIn
      exact notIn (List.mem_append_right _ (List.mem_cons_of_mem _ inBehind))

/-- When the turn is free, nobody stands in the line. -/
theorem Front.eq_nil_of_free {terms : Terms} {first count : Nat} {done rest : List Client}
    (h : Front terms first count rest) (orderly : w.Orderly) (clients : w.clients = done ++ rest)
    (free : w.catalog.holder = none) : rest = [] ∧ count = first := by
  obtain ⟨zero, waiting⟩ := orderly.idle_of_free free
  have notLoading : ∀ c ∈ rest, c.isLoading = false := by
    intro c hc
    have no := List.countP_eq_zero.mp zero c (by rw [clients]; exact List.mem_append_right _ hc)
    exact Bool.eq_false_iff.mpr no
  have notQueued : ∀ c ∈ rest, c.ticket? = none := by
    intro c hc
    exact List.filterMap_eq_nil_iff.mp waiting c (by rw [clients]; exact List.mem_append_right _ hc)
  cases h with
  | nobody next => exact ⟨rfl, next⟩
  | queued front_queued queued next =>
    rw [Client.isQueued, notQueued _ List.mem_cons_self] at front_queued
    cases front_queued
  | loading course queued =>
    have no := notLoading _ List.mem_cons_self
    cases no

/-- When the turn is taken, somebody stands in the line. -/
theorem World.Orderly.ne_nil_of_taken (h : w.Orderly) {ticket : Nat}
    (taken : w.catalog.holder = some ticket) {done rest : List Client}
    (clients : w.clients = done ++ rest) (answered : ∀ c ∈ done, c.isAnswered = true) :
    rest ≠ [] := by
  rintro rfl
  rw [List.append_nil] at clients
  have notLoading : w.loads = 0 := by
    refine List.countP_eq_zero.mpr ?_
    intro c hc loading
    obtain ⟨purpose, cycle, rfl⟩ := Client.eq_loading_of_isLoading loading
    have waits := answered _ (clients ▸ hc)
    cases waits
  have notQueued : w.waiting = [] := by
    refine List.filterMap_eq_nil_iff.mpr ?_
    intro c hc
    cases ht : c.ticket? with
    | none => rfl
    | some t =>
      obtain ⟨purpose, rfl⟩ := Client.eq_queued_of_ticket? ht
      have waits := answered _ (clients ▸ hc)
      cases waits
  rcases h.turn with ⟨one, -, -⟩ | ⟨-, waiting⟩
  · omega
  · rw [notQueued, State.line, taken] at waiting
    cases waiting

/-! ### The cold phase -/

namespace Cold

variable {j : Nat}

theorem of_same (h : Cold setting before base j w)
    (snapshot : next.catalog.snapshot = w.catalog.snapshot)
    (calls : next.catalog.calls = w.catalog.calls) (clients : next.clients = w.clients) :
    Cold setting before base j next := by
  constructor
  · rw [snapshot]
    exact h.snapshot
  · exact h.fail
  · rw [calls, clients]
    exact h.line

/-- A reader comes to a cold service: it gets the turn, or stands behind the others. -/
theorem enter (h : Cold setting before base j w) (orderly : w.Orderly)
    (cached : setting.isCached = true) {purpose : Purpose} (read : purpose.isRefresh = false)
    {s : State} {result : Visit ⊕ Outcome} (opening : Opening setting purpose w.catalog s result)
    (metrics : Metrics) (ids : Nat) (log : List String) :
    result.getRight? = none ∧ Cold setting before base j
      { catalog := { s with metrics }
        clients := w.clients ++ [.after setting purpose result]
        workers := w.workers, ids, log } := by
  obtain ⟨done, rest, hl, length, answered, front⟩ := h.line
  cases opening with
  | ask direct =>
    rw [direct] at cached
    cases cached
  | refresh _ refresh =>
    rw [refresh] at read
    cases read
  | served _ _ kept =>
    rw [h.snapshot] at kept
    cases kept
  | turn _ _ cold free =>
    -- nobody is there, so its refresh is the next one
    obtain ⟨rfl, first⟩ := front.eq_nil_of_free orderly hl free
    rw [hl, List.append_nil]
    refine ⟨rfl, cold, h.fail, done, _, rfl, length, answered, ?_⟩
    · rw [← first]
      refine .loading ?_ (fun c hc => absurd hc List.not_mem_nil)
      exact Cycle.onCourse_call _ _
  | queue _ _ cold taken =>
    have some := orderly.ne_nil_of_taken taken hl answered
    rw [hl, List.append_assoc]
    refine ⟨rfl, cold, h.fail, done, _, rfl, length, answered, ?_⟩
    · have added : ∀ behind : List Client, (∀ c ∈ behind, c.isQueued = true) →
          ∀ c ∈ behind ++ [.visiting purpose (.queued w.catalog.tickets)], c.isQueued = true := by
        intro behind queued
        exact List.forall_mem_append.mpr ⟨queued, List.forall_mem_singleton.mpr rfl⟩
      cases front with
      | nobody next => exact absurd rfl some
      | queued front_queued queued next => exact .queued front_queued (added _ queued) next
      | loading course queued => exact .loading course (added _ queued)

/-- The refresh ends of the reader whose turn it is: it is the next one to fail, or it succeeds. -/
theorem conclude (h : Cold setting before base j w) {done behind : List Client} {reply : Reply}
    (length : done.length = before + j) (answered : ∀ c ∈ done, c.isAnswered = true)
    (queued : ∀ c ∈ behind, c.isQueued = true)
    (snapshot : next.catalog.snapshot = (setting.terms.refreshAt base j).outcome.toOption)
    (calls : next.catalog.calls.length = setting.terms.firstCall base (j + 1))
    (clients : next.clients = done ++ .answered reply :: behind) :
    Cold setting before base (j + 1) next ∨ Warm setting before base j next := by
  have split : next.clients = (done ++ [.answered reply]) ++ behind := by
    rw [clients, List.append_assoc]
    rfl
  have answered' : ∀ c ∈ done ++ [.answered reply], c.isAnswered = true :=
    List.forall_mem_append.mpr ⟨answered, List.forall_mem_singleton.mpr rfl⟩
  have length' : (done ++ [Client.answered reply]).length = before + (j + 1) := by
    rw [List.length_append, length]
    rfl
  cases ho : (setting.terms.refreshAt base j).outcome.toOption with
  | none =>
    left
    refine ⟨snapshot.trans ho, ?_, _, behind, split, length', answered', ?_⟩
    · intro i hi
      rcases Nat.lt_succ_iff_lt_or_eq.mp hi with lt | rfl
      · exact h.fail i lt
      · exact ho
    · cases behind with
      | nil => exact .nobody calls
      | cons front behind =>
        refine .queued (queued _ List.mem_cons_self) ?_ calls
        intro c hc
        exact queued c (List.mem_cons_of_mem _ hc)
  | some products =>
    right
    refine ⟨snapshot, ?_, h.fail, calls, _, behind, split, length', answered', ?_⟩
    · rw [snapshot, ho]
      exact Option.some_ne_none _
    · intro c hc
      rw [Client.isIdle, queued c hc]
      rfl

/-- Only the reader whose turn it is goes on in a cold service. -/
theorem visit (h : Cold setting before base j w) (orderly : w.Orderly) {index : Nat}
    {purpose : Purpose} {visit : Visit} {s : State} {result : Visit ⊕ Outcome}
    (client : w.clients[index]? = some (.visiting purpose visit))
    (effect : Visit.Effect setting.terms w.catalog visit s result) (metrics : Metrics)
    (log : List String) :
    let next : World := { w with
      catalog := { s with metrics }
      clients := w.clients.set index (.after setting purpose result), log }
    (result.getRight? = none ∧ Cold setting before base j next) ∨
    (index = before + j ∧ result = .inr (setting.terms.refreshAt base j).outcome ∧
      next.catalog.calls.length = setting.terms.firstCall base (j + 1) ∧
      (Cold setting before base (j + 1) next ∨ Warm setting before base j next)) := by
  intro next
  have snapshot : next.catalog.snapshot = s.snapshot := rfl
  have calls : next.catalog.calls = s.calls := rfl
  have clients : next.clients = w.clients.set index (.after setting purpose result) := rfl
  obtain ⟨done, rest, hl, length, answered, front⟩ := h.line
  rw [hl] at client
  obtain ⟨x, rfl, hx, hset⟩ := exists_of_visiting answered client
  rw [hl, hset] at clients
  -- those behind wait for a turn that does not come
  have stuck : ∀ front behind, rest = front :: behind →
      (front.isLoading = true ∨ front.isQueued = true) →
      (∀ c ∈ behind, c.isQueued = true) → x = 0 := by
    rintro front behind rfl busy queued
    cases x with
    | zero => rfl
    | succ x =>
      have member : .visiting purpose visit ∈ behind := List.mem_of_getElem? hx
      obtain ⟨reader, ticket, hv⟩ := Client.eq_queued_of_isQueued (queued _ member)
      obtain ⟨rfl, rfl⟩ := Client.visiting.inj hv
      have never := orderly.not_turn_behind hl busy member
      cases effect with
      | served turn kept => exact absurd turn never
      | turn turn cold => exact absurd turn never
  cases front with
  | nobody next => cases hx
  | @queued front behind front_queued queued count =>
    obtain rfl := stuck front behind rfl (.inr front_queued) queued
    obtain rfl := Option.some.inj hx
    obtain ⟨reader, ticket, hv⟩ := Client.eq_queued_of_isQueued front_queued
    obtain ⟨rfl, rfl⟩ := Client.visiting.inj hv
    cases effect with
    | served turn kept =>
      rw [h.snapshot] at kept
      cases kept
    | turn turn cold =>
      left
      refine ⟨rfl, snapshot.trans cold, h.fail, done, _, clients, length, answered, ?_⟩
      rw [calls, ← count]
      exact .loading (Cycle.onCourse_call _ _) queued
  | @loading purpose' cycle behind course queued =>
    obtain rfl := stuck _ behind rfl (.inl rfl) queued
    obtain ⟨rfl, rfl⟩ := Client.visiting.inj (Option.some.inj hx)
    cases effect with
    | load onward =>
      left
      refine ⟨rfl, ?_, h.fail, done, _, clients, length, answered, ?_⟩
      · rw [snapshot, onward.snapshot]
        exact h.snapshot
      · rw [calls]
        exact .loading (course.onward onward) queued
    | @loaded _ e ending =>
      right
      obtain ⟨outcome, count⟩ := course.ending ending
      have count' : next.catalog.calls.length = setting.terms.firstCall base (j + 1) := by
        rw [calls, State.calls_release, State.calls_conclude]
        exact count
      refine ⟨length, congrArg Sum.inr outcome, count', ?_⟩
      refine h.conclude length answered queued ?_ count' clients
      rw [snapshot, State.snapshot_release, State.snapshot_conclude, h.snapshot, outcome]
      show ((setting.terms.refreshAt base j).outcome.toOption <|> none) = _
      cases (setting.terms.refreshAt base j).outcome <;> rfl

/-- **A quiet move in a cold service** either leaves it cold, and nobody is given anything, or the
reader whose turn it is is given the outcome of its own refresh. -/
theorem step (h : Cold setting before base j w) (orderly : w.Orderly)
    (cached : setting.isCached = true) (effect : World.Effect setting w action next)
    (quiet : Move.IsQuiet setting ⟨w, action, next⟩) :
    (w.return? setting action = none ∧ Cold setting before base j next) ∨
    ∃ purpose, w.return? setting action =
        some ⟨before + j, purpose, (setting.terms.refreshAt base j).outcome⟩ ∧
      next.catalog.calls.length = setting.terms.firstCall base (j + 1) ∧
      (Cold setting before base (j + 1) next ∨ Warm setting before base j next) := by
  cases effect with
  | consult intent opening begun metrics ids log =>
    left
    obtain ⟨purpose, hp, read⟩ := quiet
    obtain rfl := Option.some.inj (intent.symm.trans hp)
    obtain ⟨none, cold⟩ := h.enter orderly cached read opening metrics ids log
    rw [World.return?_enter intent begun, none]
    exact ⟨rfl, cold⟩
  | dispatch intent reply metrics ids =>
    obtain ⟨purpose, hp, -⟩ := quiet
    have no := intent.symm.trans hp
    cases no
  | visit client effect step metrics log =>
    rw [World.return?_client client step]
    rcases h.visit orderly client effect metrics log with ⟨none, cold⟩ | ⟨rfl, rfl, calls, phase⟩
    · left
      rw [none]
      exact ⟨rfl, cold⟩
    · right
      exact ⟨_, rfl, calls, phase⟩
  | work worker? effect =>
    have same : _ = w.catalog := quiet
    exact .inl ⟨rfl, h.of_same (congrArg State.snapshot same) (congrArg State.calls same) rfl⟩
  | start interval => exact .inl ⟨rfl, h.of_same rfl rfl rfl⟩
  | signal index value => exact .inl ⟨rfl, h.of_same rfl rfl rfl⟩
  | close index => exact .inl ⟨rfl, h.of_same rfl rfl rfl⟩
  | wait duration => exact .inl ⟨rfl, h.of_same rfl rfl rfl⟩

end Cold

/-! ### The warm phase -/

namespace Warm

variable {k : Nat}

theorem of_same (h : Warm setting before base k w)
    (snapshot : next.catalog.snapshot = w.catalog.snapshot)
    (calls : next.catalog.calls = w.catalog.calls)
    (clients : ∀ done rest, w.clients = done ++ rest → (∀ c ∈ done, c.isAnswered = true) →
      (∀ c ∈ rest, c.isIdle = true) →
      ∃ rest', next.clients = done ++ rest' ∧ ∀ c ∈ rest', c.isIdle = true) :
    Warm setting before base k next := by
  obtain ⟨done, rest, hl, length, answered, idle⟩ := h.line
  obtain ⟨rest', hl', idle'⟩ := clients done rest hl answered idle
  refine ⟨?_, ?_, h.fail, ?_, done, rest', hl', length, answered, idle'⟩
  · rw [snapshot]
    exact h.snapshot
  · rw [snapshot]
    exact h.succeeds
  · rw [calls]
    exact h.calls

/-- A reader comes to a warm service: it is given the products at once. -/
theorem enter (h : Warm setting before base k w) (cached : setting.isCached = true)
    {purpose : Purpose} (read : purpose.isRefresh = false) {s : State} {result : Visit ⊕ Outcome}
    (opening : Opening setting purpose w.catalog s result) (metrics : Metrics) (ids : Nat)
    (log : List String) :
    result = .inr (setting.terms.refreshAt base k).outcome ∧ Warm setting before base k
      { catalog := { s with metrics }
        clients := w.clients ++ [.after setting purpose result]
        workers := w.workers, ids, log } := by
  obtain ⟨products, kept⟩ := Option.ne_none_iff_exists'.mp h.succeeds
  obtain ⟨rfl, rfl⟩ := opening.eq_of_snapshot cached read kept
  refine ⟨?_, h.of_same rfl rfl ?_⟩
  · rw [h.snapshot] at kept
    exact congrArg Sum.inr (eq_ok_of_toOption kept).symm
  · intro done rest hl _ idle
    rw [hl, List.append_assoc]
    exact ⟨_, rfl, List.forall_mem_append.mpr ⟨idle, List.forall_mem_singleton.mpr rfl⟩⟩

/-- A reader goes on in a warm service: it is one that has waited for its turn, and it is given the
products. -/
theorem visit (h : Warm setting before base k w) {index : Nat} {purpose : Purpose} {visit : Visit}
    {s : State} {result : Visit ⊕ Outcome}
    (client : w.clients[index]? = some (.visiting purpose visit))
    (effect : Visit.Effect setting.terms w.catalog visit s result) (metrics : Metrics)
    (log : List String) :
    before + k < index ∧ result = .inr (setting.terms.refreshAt base k).outcome ∧
      Warm setting before base k { w with
        catalog := { s with metrics }
        clients := w.clients.set index (.after setting purpose result), log } := by
  obtain ⟨done, rest, hl, length, answered, idle⟩ := h.line
  have client' := client
  rw [hl] at client'
  obtain ⟨x, rfl, hx, -⟩ := exists_of_visiting answered client'
  have isIdle := idle _ (List.mem_of_getElem? hx)
  obtain ⟨ticket, rfl⟩ : ∃ ticket, visit = .queued ticket := by
    cases visit with
    | queued ticket => exact ⟨ticket, rfl⟩
    | loading cycle => cases isIdle
    | refreshing cycle => cases isIdle
    | asking call => cases isIdle
  cases effect with
  | served turn kept =>
    refine ⟨by omega, ?_, h.of_same rfl rfl ?_⟩
    · rw [h.snapshot] at kept
      exact congrArg Sum.inr (eq_ok_of_toOption kept).symm
    · intro done' rest' hl' answered' idle'
      rw [hl'] at client ⊢
      obtain ⟨y, -, -, hset⟩ := exists_of_visiting answered' client
      refine ⟨_, hset _, ?_⟩
      intro c hc
      rcases List.mem_or_eq_of_mem_set hc with hc | rfl
      · exact idle' c hc
      · rfl
  | turn turn cold => exact absurd cold h.succeeds

/-- **A quiet move in a warm service** leaves it warm; nobody calls the supplier, and whoever is
given something is given the products. -/
theorem step (h : Warm setting before base k w) (cached : setting.isCached = true)
    (effect : World.Effect setting w action next)
    (quiet : Move.IsQuiet setting ⟨w, action, next⟩) :
    Warm setting before base k next ∧
    ∀ r, w.return? setting action = some r →
      before + k < r.client ∧ r.outcome = (setting.terms.refreshAt base k).outcome := by
  have unchanged : next.clients = w.clients → next.catalog.snapshot = w.catalog.snapshot →
      next.catalog.calls = w.catalog.calls → Warm setting before base k next := by
    intro clients snapshot calls
    refine h.of_same snapshot calls ?_
    intro done rest hl _ idle
    exact ⟨rest, clients.trans hl, idle⟩
  cases effect with
  | consult intent opening begun metrics ids log =>
    obtain ⟨purpose, hp, read⟩ := quiet
    obtain rfl := Option.some.inj (intent.symm.trans hp)
    obtain ⟨rfl, warm⟩ := h.enter cached read opening metrics ids log
    refine ⟨warm, ?_⟩
    intro r hr
    rw [World.return?_enter intent begun] at hr
    obtain rfl := Option.some.inj hr
    obtain ⟨done, rest, hl, length, -, -⟩ := h.line
    refine ⟨?_, rfl⟩
    show before + k < w.clients.length
    rw [hl, List.length_append]
    omega
  | dispatch intent reply metrics ids =>
    obtain ⟨purpose, hp, -⟩ := quiet
    have no := intent.symm.trans hp
    cases no
  | visit client effect step metrics log =>
    obtain ⟨behind, rfl, warm⟩ := h.visit client effect metrics log
    refine ⟨warm, ?_⟩
    intro r hr
    rw [World.return?_client client step] at hr
    obtain rfl := Option.some.inj hr
    exact ⟨behind, rfl⟩
  | work worker? effect =>
    have same : _ = w.catalog := quiet
    exact ⟨unchanged rfl (congrArg State.snapshot same) (congrArg State.calls same),
      fun r hr => nomatch hr⟩
  | start interval => exact ⟨unchanged rfl rfl rfl, fun r hr => nomatch hr⟩
  | signal index value => exact ⟨unchanged rfl rfl rfl, fun r hr => nomatch hr⟩
  | close index => exact ⟨unchanged rfl rfl rfl, fun r hr => nomatch hr⟩
  | wait duration => exact ⟨unchanged rfl rfl rfl, fun r hr => nomatch hr⟩

end Warm

/-! ### Quiet runs of a cold service -/

/-- If the `k`-th refresh is the first that succeeds, a move gives the reader number `i` what its
number says: the outcome of its own refresh up to the `k`-th, and that of the `k`-th from then on.
No call has been made that is not one of these refreshes. -/
def Move.Gives (setting : Setting) (before base k : Nat) (m : Move) : Prop :=
  ∀ r, m.return? setting = some r → ∃ i, r.client = before + i ∧
    r.outcome = (setting.terms.refreshAt base (min i k)).outcome ∧
    m.after.catalog.calls.length = setting.terms.firstCall base (min i k + 1)

/-- For a reader that has failed it does not matter which of the later refreshes succeeds. -/
theorem Move.Gives.of_le {j k : Nat} {m : Move} (h : m.Gives setting before base j) (le : j ≤ k)
    (failed : ∀ r, m.return? setting = some r → r.client < before + j) :
    m.Gives setting before base k := by
  intro r hr
  obtain ⟨i, client, outcome, calls⟩ := h r hr
  have lt := failed r hr
  have same : min i k = min i j := by omega
  exact ⟨i, client, same ▸ outcome, same ▸ calls⟩

theorem World.IsCold.cold (h : w.IsCold) :
    Cold setting w.clients.length w.catalog.calls.length 0 w :=
  ⟨h.snapshot, fun i hi => absurd hi (Nat.not_lt_zero i), w.clients, [], (List.append_nil _).symm,
    rfl, h.answered, .nobody rfl⟩

/-- A quiet run of a cold service ends in one of the two phases. -/
theorem Run.phase (h : Run setting w moves next) (orderly : w.Orderly)
    (cached : setting.isCached = true) (cold : w.IsCold) (quiet : ∀ m ∈ moves, m.IsQuiet setting) :
    ∃ j, (∀ m ∈ moves, m.Gives setting w.clients.length w.catalog.calls.length j) ∧
      ((Cold setting w.clients.length w.catalog.calls.length j next ∧
        ∀ m ∈ moves, ∀ r, m.return? setting = some r → r.client < w.clients.length + j) ∨
      Warm setting w.clients.length w.catalog.calls.length j next) := by
  -- by induction on the run; `j` readers have failed so far
  induction h with
  | refl =>
    refine ⟨0, fun m hm => absurd hm List.not_mem_nil, .inl ⟨cold.cold, ?_⟩⟩
    exact fun m hm => absurd hm List.not_mem_nil
  | @snoc moves v next action run act ih =>
    have effect := World.effect_of_act? act
    have quiet' : Move.IsQuiet setting ⟨v, action, next⟩ :=
      quiet _ (List.mem_append_right _ List.mem_cons_self)
    have orderly' : v.Orderly := run.invariant orderly fun orderly effect => effect.orderly orderly
    have both : ∀ {P : Move → Prop}, (∀ m ∈ moves, P m) → P ⟨v, action, next⟩ →
        ∀ m ∈ moves ++ [⟨v, action, next⟩], P m := by
      intro P all last
      exact List.forall_mem_append.mpr ⟨all, List.forall_mem_singleton.mpr last⟩
    obtain ⟨j, gives, ⟨cold, failed⟩ | warm⟩ :=
      ih fun m hm => quiet m (List.mem_append_left _ hm)
    · rcases cold.step orderly' cached effect quiet' with
        ⟨none, cold'⟩ | ⟨purpose, returned, calls, phase⟩
      · have nothing : ∀ r, Move.return? setting ⟨v, action, next⟩ ≠ some r := by
          intro r hr
          have hr : v.return? setting action = some r := hr
          rw [none] at hr
          cases hr
        refine ⟨j, both gives ?_, .inl ⟨cold', both failed ?_⟩⟩
        · exact fun r hr => absurd hr (nothing r)
        · exact fun r hr => absurd hr (nothing r)
      · -- the reader whose turn it was is given the outcome of its own refresh
        have own : ∀ r, Move.return? setting ⟨v, action, next⟩ = some r →
            r = ⟨w.clients.length + j, purpose,
              (setting.terms.refreshAt w.catalog.calls.length j).outcome⟩ := by
          intro r hr
          exact Option.some.inj (hr.symm.trans returned)
        rcases phase with cold' | warm'
        · refine ⟨j + 1, both ?_ ?_, .inl ⟨cold', both ?_ ?_⟩⟩
          · exact fun m hm => (gives m hm).of_le (Nat.le_succ j) (failed m hm)
          · intro r hr
            rw [own r hr]
            have same : min j (j + 1) = j := by omega
            exact ⟨j, rfl, by rw [same], by rw [same]; exact calls⟩
          · intro m hm r hr
            exact Nat.lt_succ_of_lt (failed m hm r hr)
          · intro r hr
            rw [own r hr]
            exact Nat.lt_succ_self _
        · refine ⟨j, both gives ?_, .inr warm'⟩
          intro r hr
          rw [own r hr]
          exact ⟨j, rfl, by rw [Nat.min_self], by rw [Nat.min_self]; exact calls⟩
    · -- whoever is given something has come after the reader that succeeded
      obtain ⟨warm', served⟩ := warm.step cached effect quiet'
      refine ⟨j, both gives ?_, .inr warm'⟩
      intro r hr
      obtain ⟨behind, outcome⟩ := served r hr
      have last : min (r.client - w.clients.length) j = j := by omega
      refine ⟨r.client - w.clients.length, by omega, ?_, ?_⟩
      · rw [last]
        exact outcome
      · rw [last]
        exact warm'.calls

/-- Among several refreshes there is a first one that succeeds, or all fail. -/
theorem exists_first_success (terms : Terms) (base : Nat) {j n : Nat} (le : j ≤ n)
    (fail : Fail terms base j) : ∃ k, j ≤ k ∧ k ≤ n ∧ Fail terms base k ∧
      (k < n → (terms.refreshAt base k).outcome.toOption ≠ none) := by
  induction hd : n - j generalizing j with
  | zero => exact ⟨j, Nat.le_refl j, le, fail, fun lt => by omega⟩
  | succ d ih =>
    cases ho : (terms.refreshAt base j).outcome.toOption with
    | some products => exact ⟨j, Nat.le_refl j, le, fail, fun _ => by rw [ho]; simp⟩
    | none =>
      have fail' : Fail terms base (j + 1) := by
        intro i hi
        rcases Nat.lt_succ_iff_lt_or_eq.mp hi with lt | rfl
        · exact fail i lt
        · exact ho
      obtain ⟨k, ge, rest⟩ := ih (by omega) fail' (by omega)
      exact ⟨k, by omega, rest⟩

/-- **Readers of a cold catalog share one success.**  In a quiet run in which `n` readers come to a
cold service there is a `k` such that the refreshes of the first `k` of them fail and the next one
succeeds, unless `k` is `n`; and each reader that is given something is given what its number says.
If nobody waits in the end, no calls have been made but those of these refreshes. -/
theorem Run.coalesced (h : Run setting w moves next) (orderly : w.Orderly)
    (cached : setting.isCached = true) (cold : w.IsCold) (quiet : ∀ m ∈ moves, m.IsQuiet setting)
    {n : Nat} (came : next.clients.length = w.clients.length + n) :
    ∃ k ≤ n, Fail setting.terms w.catalog.calls.length k ∧
      (k < n → (setting.terms.refreshAt w.catalog.calls.length k).outcome.toOption ≠ none) ∧
      (∀ m ∈ moves, m.Gives setting w.clients.length w.catalog.calls.length k) ∧
      ((∀ c ∈ next.clients, c.isAnswered = true) → next.catalog.calls.length =
        setting.terms.firstCall w.catalog.calls.length (min n (k + 1))) := by
  obtain ⟨j, gives, ⟨cold, failed⟩ | warm⟩ := h.phase orderly cached cold quiet
  · obtain ⟨done, rest, hl, length, -, front⟩ := cold.line
    rw [hl, List.length_append, length] at came
    have le : j ≤ n := by omega
    obtain ⟨k, ge, hk, fail, succeeds⟩ := exists_first_success _ _ le cold.fail
    refine ⟨k, hk, fail, succeeds, fun m hm => (gives m hm).of_le ge (failed m hm), ?_⟩
    intro all
    -- nobody waits, so all have failed
    cases front with
    | nobody count =>
      have last : min n (k + 1) = j := by
        rw [List.length_nil] at came
        omega
      rw [last]
      exact count
    | @queued front behind front_queued queued count =>
      obtain ⟨purpose, ticket, rfl⟩ := Client.eq_queued_of_isQueued front_queued
      have waits := all _ (hl ▸ List.mem_append_right _ List.mem_cons_self)
      cases waits
    | loading course queued =>
      have waits := all _ (hl ▸ List.mem_append_right _ List.mem_cons_self)
      cases waits
  · obtain ⟨done, rest, hl, length, -, -⟩ := warm.line
    rw [hl, List.length_append, length] at came
    refine ⟨j, by omega, warm.fail, ?_, gives, ?_⟩
    · intro _
      rw [← warm.snapshot]
      exact warm.succeeds
    · intro _
      have last : min n (j + 1) = j + 1 := by omega
      rw [last]
      exact warm.calls

/-! ### Everybody is given something -/

/-- Whoever has been answered after a quiet move had been before, or is given something with it. -/
theorem World.Effect.answered (effect : World.Effect setting w action next)
    (quiet : Move.IsQuiet setting ⟨w, action, next⟩) {index : Nat} {reply : Reply}
    (answered : next.clients[index]? = some (.answered reply)) :
    w.clients[index]? = some (.answered reply) ∨
      ∃ r, w.return? setting action = some r ∧ r.client = index := by
  cases effect with
  | @consult arrival purpose s result intent opening begun metrics ids log =>
    rw [World.return?_enter intent begun]
    by_cases there : index < w.clients.length
    · left
      rw [List.getElem?_append_left there] at answered
      exact answered
    · -- it is the one who has come
      right
      rw [List.getElem?_append_right (Nat.le_of_not_lt there), List.getElem?_singleton] at answered
      split at answered
      · next zero =>
        have last : w.clients.length = index := by omega
        cases result with
        | inl visit => cases answered
        | inr outcome => exact ⟨_, rfl, last⟩
      · cases answered
  | dispatch intent reply metrics ids =>
    obtain ⟨purpose, hp, -⟩ := quiet
    have no := intent.symm.trans hp
    cases no
  | @visit other purpose visit s result client effect step metrics log =>
    rw [World.return?_client client step]
    by_cases same : other = index
    · right
      have there : index < w.clients.length := by
        rw [← same]
        exact (List.getElem?_eq_some_iff.mp client).1
      rw [same, List.getElem?_set_self there] at answered
      cases result with
      | inl visit => cases answered
      | inr outcome => exact ⟨_, rfl, same⟩
    · left
      rw [List.getElem?_set_ne same] at answered
      exact answered
  | work worker? effect => exact .inl answered
  | start interval => exact .inl answered
  | signal index value => exact .inl answered
  | close index => exact .inl answered
  | wait duration => exact .inl answered

/-- Whoever came in a quiet run and waits no longer has been given something. -/
theorem Run.exists_return (h : Run setting w moves next) (quiet : ∀ m ∈ moves, m.IsQuiet setting)
    {index : Nat} (came : w.clients.length ≤ index) {reply : Reply}
    (answered : next.clients[index]? = some (.answered reply)) :
    ∃ m ∈ moves, ∃ r, m.return? setting = some r ∧ r.client = index := by
  induction h with
  | refl =>
    rw [List.getElem?_eq_none came] at answered
    cases answered
  | @snoc moves v next action run act ih =>
    have quiet' : Move.IsQuiet setting ⟨v, action, next⟩ :=
      quiet _ (List.mem_append_right _ List.mem_cons_self)
    rcases (World.effect_of_act? act).answered quiet' answered with before | ⟨r, hr, client⟩
    · obtain ⟨m, hm, found⟩ := ih (fun m hm => quiet m (List.mem_append_left _ hm)) before
      exact ⟨m, List.mem_append_left _ hm, found⟩
    · exact ⟨_, List.mem_append_right _ List.mem_cons_self, r, hr, client⟩

end Service

end ProductSegments
