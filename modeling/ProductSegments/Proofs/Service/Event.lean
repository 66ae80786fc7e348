import ProductSegments.Proofs.Service.Run

/-!
# What happens in a run

Two kinds of events can be seen in the moves of a run: a refresh ends, whoever began it, and a
visit to the catalog ends, which is when its caller gets the outcome.  The products that the
refreshes of a run have stored are its history.

## Main definitions

* `Service.World.cycle?` — the refresh that an action goes on with.
* `Service.Move.ending?` — the refresh that ends with a move.
* `Service.Return`, `Service.Move.return?` — the visit that ends with a move.
* `Service.stored` — the products that the refreshes of a run have stored, the last ones at the end.

## Main results

* `Service.World.Effect.snapshot` — the snapshot is changed by the end of a successful refresh, and
  by nothing else.
* `Service.World.Effect.forall_clients` — what all clients have in common, action by action.
* `Service.Run.fits` — with a cache, refreshes are made for those who ask for them and all others
  read, and without one everybody asks the supplier.
-/

namespace ProductSegments

open Catalog (State Visit Cycle Worker Outcome Ending)

/-- The refresh that a visit is about, if it is one. -/
def Catalog.Visit.cycle? : Visit → Option Cycle
  | .loading cycle | .refreshing cycle => some cycle
  | .queued _ | .asking _ => none

namespace Service

/-! ### Ends of refreshes -/

/-- The refresh that a client waits for. -/
def Client.cycle? : Client → Option Cycle
  | .visiting _ visit => visit.cycle?
  | .answered _ => none

/-- The refresh that an action goes on with. -/
def World.cycle? (w : World) : Action → Option Cycle
  | .client index => w.clients[index]?.bind Client.cycle?
  | .worker index _ => w.workers[index]?.bind Worker.cycle?
  | _ => none

/-- How the refresh ends that an action goes on with, if it ends. -/
def World.ending? (setting : Setting) (w : World) (action : Action) : Option Ending :=
  (w.cycle? action).bind (·.ending? setting.terms w.catalog)

/-- The refresh that ends with a move. -/
def Move.ending? (setting : Setting) (m : Move) : Option Ending :=
  m.before.ending? setting m.action

/-- The products that the refreshes of a run have stored, the last ones at the end. -/
def stored (setting : Setting) (moves : List Move) : List (List Product) :=
  moves.filterMap fun m => (m.ending? setting).bind Ending.products?

theorem stored_append (setting : Setting) (moves moves' : List Move) :
    stored setting (moves ++ moves') = stored setting moves ++ stored setting moves' :=
  List.filterMap_append

theorem stored_snoc (setting : Setting) (moves : List Move) (m : Move) :
    stored setting (moves ++ [m]) =
      stored setting moves ++ ((m.ending? setting).bind Ending.products?).toList := by
  rw [stored_append]
  cases h : (m.ending? setting).bind Ending.products? <;> simp [stored, h]

/-! ### Ends of visits -/

/-- The end of a visit to the catalog: whose it was, what it was for and what came of it. -/
structure Return where
  client : Nat
  purpose : Purpose
  outcome : Outcome

/-- The visit that ends with an action. -/
def World.return? (setting : Setting) (w : World) : Action → Option Return
  | .enter arrival =>
    match arrival.purpose? setting w with
    | some purpose => (setting.consult purpose w.catalog).2.getRight?.map
        fun outcome => ⟨w.clients.length, purpose, outcome⟩
    | none => none
  | .client index =>
    match w.clients[index]? with
    | some (.visiting purpose visit) => match visit.step setting.terms w.catalog with
      | some (_, result) => result.getRight?.map fun outcome => ⟨index, purpose, outcome⟩
      | none => none
    | _ => none
  | _ => none

/-- The visit that ends with a move. -/
def Move.return? (setting : Setting) (m : Move) : Option Return :=
  m.before.return? setting m.action

namespace World

variable {setting : Setting} {w next : World} {action : Action}

/-! ### What the actions do to the catalog -/

theorem ending?_client {index : Nat} {purpose : Purpose} {visit : Visit}
    (h : w.clients[index]? = some (.visiting purpose visit)) :
    w.ending? setting (.client index) =
      visit.cycle?.bind (·.ending? setting.terms w.catalog) := by
  simp [ending?, cycle?, h, Client.cycle?]

theorem ending?_worker {index : Nat} {attention : Attention} {worker : Worker}
    (h : w.workers[index]? = some worker) :
    w.ending? setting (.worker index attention) =
      worker.cycle?.bind (·.ending? setting.terms w.catalog) := by
  simp [ending?, cycle?, h]

theorem return?_enter {arrival : Arrival} {purpose : Purpose} {s : State} {result : Visit ⊕ Outcome}
    (intent : arrival.purpose? setting w = some purpose)
    (begun : setting.consult purpose w.catalog = (s, result)) :
    w.return? setting (.enter arrival) =
      result.getRight?.map fun outcome => ⟨w.clients.length, purpose, outcome⟩ := by
  simp only [return?, intent, begun]

theorem return?_dispatch {arrival : Arrival} (intent : arrival.purpose? setting w = none) :
    w.return? setting (.enter arrival) = none := by
  simp only [return?, intent]

theorem return?_client {index : Nat} {purpose : Purpose} {visit : Visit} {s : State}
    {result : Visit ⊕ Outcome} (client : w.clients[index]? = some (.visiting purpose visit))
    (step : visit.step setting.terms w.catalog = some (s, result)) :
    w.return? setting (.client index) =
      result.getRight?.map fun outcome => ⟨index, purpose, outcome⟩ := by
  simp only [return?, client, step]

/-- A refresh ends with the answer to its last call. -/
theorem outcome_of_ending? {e : Ending} (h : w.ending? setting action = some e) :
    e.outcome = (setting.terms.supplier e.call.index).outcome := by
  obtain ⟨cycle, -, he⟩ := Option.bind_eq_some_iff.mp h
  obtain ⟨-, -, -, ho, -⟩ := Cycle.ending?_eq_some_iff.mp he
  exact ho

/-- **What changes the snapshot**: a refresh that ends with products replaces it, and nothing else
touches it. -/
theorem Effect.snapshot (h : Effect setting w action next) :
    next.catalog.snapshot =
      ((w.ending? setting action).bind Ending.products? <|> w.catalog.snapshot) := by
  cases h with
  | consult intent opening begun metrics ids log => cases opening <;> rfl
  | dispatch intent reply metrics ids => rfl
  | visit client effect step metrics log =>
    rw [ending?_client client]
    cases effect with
    | served turn kept => rfl
    | turn turn cold => rfl
    | load onward =>
      simp only [Visit.cycle?, Option.bind_some, onward.ending?, Option.bind_none]
      cases onward <;> rfl
    | loaded ending =>
      simp only [Visit.cycle?, Option.bind_some, ending, State.snapshot_release,
        State.snapshot_conclude, Ending.products?]
    | refresh onward =>
      simp only [Visit.cycle?, Option.bind_some, onward.ending?, Option.bind_none]
      cases onward <;> rfl
    | refreshed ending =>
      simp only [Visit.cycle?, Option.bind_some, ending, State.snapshot_conclude,
        Ending.products?]
    | asked due => rfl
  | work worker? effect =>
    rw [ending?_worker worker?]
    cases effect with
    | tick idle passed => simp [Worker.cycle?, idle]
    | onward busy onward =>
      simp only [Worker.cycle?, busy, Option.bind_some, onward.ending?, Option.bind_none]
      cases onward <;> rfl
    | ended busy ending =>
      simp only [Worker.cycle?, busy, Option.bind_some, ending, State.snapshot_conclude,
        Ending.products?]
    | observe before after => simp [before]
  | start interval => rfl
  | signal index value => rfl
  | close index => rfl
  | wait duration => rfl

/-! ### How visits end -/

/-- How a visit to the catalog ends. -/
inductive Returned (setting : Setting) (w : World) : Action → Return → Prop where
  /-- A reader finds products when it comes in. -/
  | arrived {arrival : Arrival} {purpose : Purpose} {products : List Product}
      (cached : setting.isCached = true) (read : purpose.isRefresh = false)
      (kept : w.catalog.snapshot = some products) :
      Returned setting w (.enter arrival) ⟨w.clients.length, purpose, .ok products⟩
  /-- A reader finds products when its turn has come. -/
  | turned {index ticket : Nat} {purpose : Purpose} {products : List Product}
      (client : w.clients[index]? = some (.visiting purpose (.queued ticket)))
      (turn : w.catalog.holder = some ticket) (kept : w.catalog.snapshot = some products) :
      Returned setting w (.client index) ⟨index, purpose, .ok products⟩
  /-- The refresh ends that a client has waited for, as a reader or because it asked for it. -/
  | ended {index : Nat} {purpose : Purpose} {visit : Visit} {cycle : Cycle} {e : Ending}
      (client : w.clients[index]? = some (.visiting purpose visit))
      (cycle? : visit.cycle? = some cycle)
      (ending : cycle.ending? setting.terms w.catalog = some e) :
      Returned setting w (.client index) ⟨index, purpose, e.outcome⟩
  | asked {index : Nat} {purpose : Purpose} {call : Catalog.Call}
      (client : w.clients[index]? = some (.visiting purpose (.asking call)))
      (due : call.due ≤ w.catalog.now) :
      Returned setting w (.client index)
        ⟨index, purpose, (setting.terms.supplier call.index).outcome⟩

/-- Visits end in no other way. -/
theorem Effect.returned (h : Effect setting w action next) {r : Return}
    (hr : w.return? setting action = some r) : Returned setting w action r := by
  cases h with
  | consult intent opening begun metrics ids log =>
    rw [return?_enter intent begun] at hr
    cases opening with
    | served cached read kept => obtain rfl := Option.some.inj hr; exact .arrived cached read kept
    | ask direct => cases hr
    | refresh cached refresh => cases hr
    | turn cached read cold free => cases hr
    | queue cached read cold taken => cases hr
  | dispatch intent reply metrics ids => rw [return?_dispatch intent] at hr; cases hr
  | visit client effect step metrics log =>
    rw [return?_client client step] at hr
    cases effect with
    | served turn kept => obtain rfl := Option.some.inj hr; exact .turned client turn kept
    | loaded ending => obtain rfl := Option.some.inj hr; exact .ended client rfl ending
    | refreshed ending => obtain rfl := Option.some.inj hr; exact .ended client rfl ending
    | asked due => obtain rfl := Option.some.inj hr; exact .asked client due
    | turn turn cold => cases hr
    | load onward => cases hr
    | refresh onward => cases hr
  | work worker? effect => cases hr
  | start interval => cases hr
  | signal index value => cases hr
  | close index => cases hr
  | wait duration => cases hr

/-! ### Clients and their purposes -/

/-- What holds of all clients is kept by an action if it holds of whoever comes in and of whoever
goes on. -/
theorem Effect.forall_clients {P : Client → Prop} (h : Effect setting w action next)
    (all : ∀ c ∈ w.clients, P c) (answered : ∀ reply, P (.answered reply))
    (opened : ∀ {purpose s result}, Opening setting purpose w.catalog s result →
      P (.after setting purpose result))
    (stepped : ∀ {purpose visit s result}, P (.visiting purpose visit) →
      Visit.Effect setting.terms w.catalog visit s result → P (.after setting purpose result)) :
    ∀ c ∈ next.clients, P c := by
  cases h with
  | consult intent opening begun metrics ids log =>
    exact List.forall_mem_append.mpr ⟨all, List.forall_mem_singleton.mpr (opened opening)⟩
  | dispatch intent reply metrics ids =>
    exact List.forall_mem_append.mpr ⟨all, List.forall_mem_singleton.mpr (answered reply)⟩
  | visit client effect step metrics log =>
    intro c hc
    rcases List.mem_or_eq_of_mem_set hc with hc | rfl
    · exact all c hc
    · exact stepped (all _ (List.mem_of_getElem? client)) effect
  | work worker? effect => exact all
  | start interval => exact all
  | signal index value => exact all
  | close index => exact all
  | wait duration => exact all

end World

/-- A visit is of the kind that its purpose asks for. -/
def Client.Fits (setting : Setting) : Client → Prop
  | .visiting purpose (.queued _) | .visiting purpose (.loading _) =>
    setting.isCached = true ∧ purpose.isRefresh = false
  | .visiting purpose (.refreshing _) => setting.isCached = true ∧ purpose.isRefresh = true
  | .visiting _ (.asking _) => setting.isCached = false
  | .answered _ => True

theorem Opening.fits {setting : Setting} {purpose : Purpose} {s s' : State}
    {result : Visit ⊕ Outcome} (h : Opening setting purpose s s' result) :
    (Client.after setting purpose result).Fits setting := by
  cases h with
  | ask direct => exact direct
  | refresh cached refresh => exact ⟨cached, refresh⟩
  | served cached read kept => trivial
  | turn cached read cold free => exact ⟨cached, read⟩
  | queue cached read cold taken => exact ⟨cached, read⟩

theorem Client.Fits.after {setting : Setting} {purpose : Purpose} {visit : Visit} {s s' : State}
    {result : Visit ⊕ Outcome} (fits : (Client.visiting purpose visit).Fits setting)
    (h : Visit.Effect setting.terms s visit s' result) :
    (Client.after setting purpose result).Fits setting := by
  cases h with
  | served turn kept => trivial
  | turn turn cold => exact fits
  | load onward => exact fits
  | loaded ending => trivial
  | refresh onward => exact fits
  | refreshed ending => trivial
  | asked due => trivial

/-- In every run that begins with nobody, every visit is of the kind that its purpose asks for. -/
theorem Run.fits {setting : Setting} {w : World} {moves : List Move}
    (h : Run setting .initial moves w) : ∀ c ∈ w.clients, c.Fits setting := by
  refine h.invariant (P := fun w => ∀ c ∈ w.clients, c.Fits setting) (by intro c hc; cases hc) ?_
  intro w v action all effect
  exact effect.forall_clients all (fun _ => trivial) (fun opening => opening.fits)
    (fun fits effect => fits.after effect)

end Service

end ProductSegments
