import ProductSegments.Proofs.Catalog.Retry
import ProductSegments.Proofs.Service.Queue

/-!
# Every visit comes to an end

A visit has a bounded number of steps, since a failed call is repeated a bounded number of times.
And as long as somebody waits, somebody can go on once enough time has passed: whoever has the turn,
if nobody else.

## Main definitions

* `Catalog.Visit.remaining` — how many steps a visit can still take.
* `Service.World.remaining` — how many steps all clients together can still take.

## Main results

* `Service.Run.count_client_le` — no client takes more steps than it has left.
* `Service.World.Orderly.exists_step` — somebody can go on as long as somebody waits.
* `Service.World.Orderly.settles` — by waiting and letting clients go on, all of them are answered.
-/

namespace ProductSegments

open Catalog (State Visit Cycle Worker Outcome Ending Backoff)

/-! ### The steps that are left -/

namespace Catalog

/-- How many steps a refresh can still take: one for each answer and one for each wait. -/
def Cycle.remaining (policy : Backoff) : Cycle → Nat
  | .calling attempt _ => 2 * (policy.maxRetries.toNat - attempt.toNat) + 1
  | .resting attempt _ => 2 * (policy.maxRetries.toNat - attempt.toNat) + 2

/-- How many steps a visit can still take. -/
def Visit.remaining (policy : Backoff) : Visit → Nat
  | .queued _ => 2 * policy.maxRetries.toNat + 2
  | .loading cycle | .refreshing cycle => cycle.remaining policy
  | .asking _ => 1

theorem Cycle.remaining_pos (policy : Backoff) (cycle : Cycle) : 0 < cycle.remaining policy := by
  cases cycle <;> exact Nat.succ_pos _

theorem Cycle.Onward.remaining_lt {terms : Terms} {s s' : State} {cycle next : Cycle}
    (h : Cycle.Onward terms s cycle s' next) :
    next.remaining terms.policy < cycle.remaining terms.policy := by
  cases h with
  | rest due repeats =>
    have lt := Backoff.lt_of_wait? repeats
    have succ := Backoff.toNat_succ_of_wait? repeats
    simp only [Cycle.remaining, succ]
    omega
  | again passed => exact Nat.lt_succ_self _

end Catalog

namespace Service

/-- How many steps a client can still take. -/
def Client.remaining (policy : Backoff) : Client → Nat
  | .visiting _ visit => visit.remaining policy
  | .answered _ => 0

/-- Every step of a visit is one of those that were left. -/
theorem Client.remaining_after_lt {setting : Setting} {purpose : Purpose} {visit : Visit}
    {s s' : State} {result : Visit ⊕ Outcome}
    (h : Visit.Effect setting.terms s visit s' result) :
    (Client.after setting purpose result).remaining setting.terms.policy <
      (Client.visiting purpose visit).remaining setting.terms.policy := by
  cases h with
  | served turn kept => exact Nat.succ_pos _
  | turn turn cold => exact Nat.lt_succ_self _
  | load onward => exact onward.remaining_lt
  | loaded ending => exact Cycle.remaining_pos _ _
  | refresh onward => exact onward.remaining_lt
  | refreshed ending => exact Cycle.remaining_pos _ _
  | asked due => exact Nat.one_pos

/-- How many steps several clients together can still take. -/
def Client.allRemaining (policy : Backoff) : List Client → Nat
  | [] => 0
  | c :: clients => c.remaining policy + allRemaining policy clients

theorem Client.allRemaining_append (policy : Backoff) (clients clients' : List Client) :
    allRemaining policy (clients ++ clients') =
      allRemaining policy clients + allRemaining policy clients' := by
  induction clients with
  | nil => exact (Nat.zero_add _).symm
  | cons c clients ih =>
    rw [List.cons_append, allRemaining, allRemaining, ih]
    omega

/-- How many steps all clients together can still take. -/
def World.remaining (setting : Setting) (w : World) : Nat :=
  Client.allRemaining setting.terms.policy w.clients

/-! ### No client takes more steps -/

/-- How many steps the client with an index can still take. -/
def World.remainingOf (setting : Setting) (w : World) (index : Nat) : Nat :=
  w.clients[index]?.elim 0 (Client.remaining setting.terms.policy)

variable {setting : Setting} {w next : World} {action : Action} {moves : List Move}

/-- A client that is there takes one of its steps with its own action, and none with another one. -/
theorem World.Effect.remainingOf_le (h : World.Effect setting w action next) {index : Nat}
    (there : index < w.clients.length) : index < next.clients.length ∧
      next.remainingOf setting index + (if action = .client index then 1 else 0) ≤
        w.remainingOf setting index := by
  have came : ∀ c, (w.clients ++ [c])[index]? = w.clients[index]? := by
    intro c
    exact List.getElem?_append_left there
  -- a client that does not go on itself keeps its steps
  have rests : ∀ {a : Action} {v : World}, a ≠ .client index →
      v.clients[index]? = w.clients[index]? →
      v.remainingOf setting index + (if a = .client index then 1 else 0) ≤
        w.remainingOf setting index := by
    intro a v other same
    rw [if_neg other, remainingOf, remainingOf, same]
    exact Nat.le_refl _
  cases h with
  | consult intent opening begun metrics ids log =>
    exact ⟨by simp only [List.length_append]; omega, rests Action.noConfusion (came _)⟩
  | dispatch intent reply metrics ids =>
    exact ⟨by simp only [List.length_append]; omega, rests Action.noConfusion (came _)⟩
  | @visit other purpose visit s result client effect step metrics log =>
    refine ⟨by simpa using there, ?_⟩
    by_cases same : other = index
    · subst same
      rw [if_pos rfl, remainingOf, remainingOf, List.getElem?_set_self there, client]
      exact Client.remaining_after_lt effect
    · exact rests (fun h => same (Action.client.inj h)) (List.getElem?_set_ne same)
  | work worker? effect => exact ⟨there, rests Action.noConfusion rfl⟩
  | start interval => exact ⟨there, rests Action.noConfusion rfl⟩
  | signal index value => exact ⟨there, rests Action.noConfusion rfl⟩
  | close index => exact ⟨there, rests Action.noConfusion rfl⟩
  | wait duration => exact ⟨there, rests Action.noConfusion rfl⟩

/-- **No client takes more steps than it has left**, whatever happens around it. -/
theorem Run.count_client_le (h : Run setting w moves next) {index : Nat}
    (there : index < w.clients.length) :
    moves.countP (·.action = .client index) ≤ w.remainingOf setting index := by
  have bound : index < next.clients.length ∧
      next.remainingOf setting index + moves.countP (·.action = .client index) ≤
        w.remainingOf setting index := by
    induction h with
    | refl => exact ⟨there, Nat.le_refl _⟩
    | @snoc moves v next action run act ih =>
      obtain ⟨hv, ih⟩ := ih
      obtain ⟨hn, step⟩ := (World.effect_of_act? act).remainingOf_le hv
      refine ⟨hn, ?_⟩
      rw [List.countP_append, List.countP_singleton]
      simp only [decide_eq_true_eq]
      omega
  omega

/-! ### Somebody can go on -/

/-- The client does not wait any longer. -/
def Client.isAnswered : Client → Bool
  | .visiting .. => false
  | .answered _ => true

/-- A client goes on, or time passes. -/
def Action.isOnward : Action → Bool
  | .client _ | .wait _ => true
  | _ => false

namespace World

theorem isSome_stepClient? {index : Nat} {purpose : Purpose} {visit : Visit}
    (client : w.clients[index]? = some (.visiting purpose visit))
    (h : (visit.step setting.terms w.catalog).isSome) :
    (w.stepClient? setting index).isSome := by
  obtain ⟨result, hr⟩ := Option.isSome_iff_exists.mp h
  simp only [stepClient?, client, hr]
  rfl

/-- A client that waits for the supplier or for the clock can go on after some time. -/
theorem exists_step_of_due? {index due : Nat} {purpose : Purpose} {visit : Visit}
    (client : w.clients[index]? = some (.visiting purpose visit)) (hd : visit.due? = some due) :
    ((w.wait (due - w.catalog.now)).stepClient? setting index).isSome := by
  have passed : due ≤ (w.wait (due - w.catalog.now)).catalog.now := by
    show due ≤ w.catalog.now + (due - w.catalog.now)
    omega
  exact isSome_stepClient? client (Visit.isSome_step hd passed)

/-- **Somebody can go on as long as somebody waits**, at once or after some time. -/
theorem Orderly.exists_step (h : w.Orderly) {purpose : Purpose} {visit : Visit}
    (somebody : .visiting purpose visit ∈ w.clients) :
    ∃ index duration, ((w.wait duration).stepClient? setting index).isSome := by
  have timed : ∀ purpose visit due, .visiting purpose visit ∈ w.clients →
      visit.due? = some due →
      ∃ index duration, ((w.wait duration).stepClient? setting index).isSome := by
    intro purpose visit due member hd
    obtain ⟨index, client⟩ := List.getElem?_of_mem member
    exact ⟨index, _, exists_step_of_due? client hd⟩
  cases hd : visit.due? with
  | some due => exact timed purpose visit due somebody hd
  | none =>
    -- a reader in the queue waits for another one, who refreshes or is about to
    obtain ⟨ticket, rfl⟩ : ∃ ticket, visit = .queued ticket := by
      cases visit with
      | queued ticket => exact ⟨ticket, rfl⟩
      | loading cycle => cases hd
      | refreshing cycle => cases hd
      | asking call => cases hd
    rcases h.turn with ⟨one, -, -⟩ | ⟨-, waiting⟩
    · -- somebody refreshes
      have pos : 0 < w.clients.countP Client.isLoading := by
        show 0 < w.loads
        omega
      obtain ⟨c, member, loading⟩ := List.countP_pos_iff.mp pos
      obtain ⟨purpose', cycle, rfl⟩ := Client.eq_loading_of_isLoading loading
      exact timed purpose' (.loading cycle) cycle.due member rfl
    · -- somebody has the turn and is in the queue
      have mine : ticket ∈ w.catalog.line := by
        rw [← waiting]
        exact List.mem_filterMap.mpr ⟨_, somebody, rfl⟩
      cases turn : w.catalog.holder with
      | none =>
        rw [State.line, turn, h.free turn] at mine
        cases mine
      | some first =>
        have member : first ∈ w.waiting := by
          rw [waiting, State.line, turn]
          exact List.mem_cons_self
        obtain ⟨c, hc, ht⟩ := List.mem_filterMap.mp member
        obtain ⟨index, client⟩ := List.getElem?_of_mem hc
        obtain ⟨purpose', rfl⟩ := Client.eq_queued_of_ticket? ht
        refine ⟨index, 0, isSome_stepClient? client ?_⟩
        show (if w.catalog.holder = some first then _ else none : Option _).isSome
        rw [if_pos turn]
        rfl

/-! ### All are answered in the end -/

theorem Effect.remaining_lt {index : Nat} (h : Effect setting w (.client index) next) :
    next.remaining setting < w.remaining setting := by
  cases h with
  | @visit index purpose visit s result client effect step metrics log =>
    obtain ⟨front, back, hl, -, hset⟩ := exists_around_of_getElem? client
    have lt : (Client.after setting purpose result).remaining setting.terms.policy <
        (Client.visiting purpose visit).remaining setting.terms.policy :=
      Client.remaining_after_lt effect
    unfold remaining
    dsimp only
    rw [hset, hl, Client.allRemaining_append, Client.allRemaining_append, Client.allRemaining,
      Client.allRemaining]
    omega

/-- **All are answered in the end**: from any orderly state, only by waiting and by letting clients
go on, a state is reached in which nobody waits. -/
theorem Orderly.settles (h : w.Orderly) : ∃ moves next, Run setting w moves next ∧
    (∀ m ∈ moves, m.action.isOnward = true) ∧ ∀ c ∈ next.clients, c.isAnswered = true := by
  induction hn : w.remaining setting using Nat.strongRecOn generalizing w with
  | ind n ih =>
    by_cases all : ∀ c ∈ w.clients, c.isAnswered = true
    · exact ⟨[], w, .refl, fun m hm => absurd hm List.not_mem_nil, all⟩
    · -- one client takes a step after some time, and fewer steps are left
      obtain ⟨purpose, visit, somebody⟩ : ∃ purpose visit, .visiting purpose visit ∈ w.clients := by
        simp only [Classical.not_forall, exists_prop] at all
        obtain ⟨c, member, waits⟩ := all
        cases c with
        | visiting purpose visit => exact ⟨purpose, visit, member⟩
        | answered reply => exact absurd rfl waits
      obtain ⟨index, duration, step⟩ := @exists_step setting w h purpose visit somebody
      obtain ⟨v, hv⟩ := Option.isSome_iff_exists.mp step
      have waited : Effect setting w (.wait duration) (w.wait duration) := .wait duration
      have stepped : Effect setting (w.wait duration) (.client index) v := effect_stepClient? hv
      have fewer : v.remaining setting < n := by
        rw [← hn]
        exact stepped.remaining_lt
      obtain ⟨moves, next, run, onward, done⟩ := ih _ fewer (stepped.orderly (waited.orderly h)) rfl
      refine ⟨⟨w, .wait duration, w.wait duration⟩ :: ⟨w.wait duration, .client index, v⟩ :: moves,
        next, ?_, ?_, done⟩
      · exact Run.cons_iff.mpr ⟨rfl, rfl, Run.cons_iff.mpr ⟨rfl, hv, run⟩⟩
      · intro m hm
        rcases List.mem_cons.mp hm with rfl | hm
        · rfl
        · rcases List.mem_cons.mp hm with rfl | hm
          · rfl
          · exact onward m hm

end World

end Service

end ProductSegments
