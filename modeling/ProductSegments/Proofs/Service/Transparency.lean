import ProductSegments.Proofs.Service.Progress
import ProductSegments.Proofs.Service.Request

/-!
# Caching is transparent

As long as the supplier always has the same products, nobody can tell from the answers to requests
whether the service keeps them.  However long the supplier takes, whatever requests come in between
and whichever worker refreshes the catalog, an answer shows what the request and those products
settle, and it does come.

## Main definitions

* `Catalog.Supplier.IsSteady` — the supplier always has the same products.
* `Service.Setting.responseTo` — what a request is answered as long as it has.
* `Service.Setting.keeping` — the same setting with or without a cache, on some terms.
* `Service.arrivals`, `Service.World.shown?` — who has come, and what they have been answered.
* `Service.Indistinguishable` — nobody can tell two services apart.

## Main results

* `Service.Run.steady` — with a steady supplier everybody is answered by `responseTo`.
* `Service.Run.settled` — in the end they are.
* `Service.Run.caching_transparent` — so a cache does not show.
-/

namespace ProductSegments

open Catalog (State Visit Cycle Worker Outcome Ending Terms)

/-- The supplier always has the same products, whatever time its answers take. -/
def Catalog.Supplier.IsSteady (supplier : Catalog.Supplier) (products : List Product) : Prop :=
  ∀ call, (supplier call).outcome = .ok products

/-- A visit to a catalog that keeps nothing else is given the products of a steady supplier. -/
theorem Catalog.Visit.Effect.outcome_of_steady {products : List Product} {terms : Terms}
    {s s' : State} {visit : Visit} {outcome : Outcome} (steady : terms.supplier.IsSteady products)
    (kept : ∀ products', s.snapshot = some products' → products' = products)
    (h : Visit.Effect terms s visit s' (.inr outcome)) : outcome = .ok products := by
  have ended : ∀ (cycle : Cycle) (e : Ending), cycle.ending? terms s = some e →
      e.outcome = .ok products := by
    intro cycle e ending
    obtain ⟨-, -, -, ho, -⟩ := Cycle.ending?_eq_some_iff.mp ending
    exact ho.trans (steady _)
  cases h with
  | served turn snapshot => rw [kept _ snapshot]
  | loaded ending => exact ended _ _ ending
  | refreshed ending => exact ended _ _ ending
  | asked due => exact steady _

namespace Service

variable {setting : Setting} {products : List Product} {w next : World} {action : Action}
  {moves : List Move}

/-! ### What visits are given -/

theorem Opening.outcome_of_steady {purpose : Purpose} {s s' : State} {outcome : Outcome}
    (kept : ∀ products', s.snapshot = some products' → products' = products)
    (h : Opening setting purpose s s' (.inr outcome)) : outcome = .ok products := by
  cases h with
  | served cached read snapshot => rw [kept _ snapshot]

/-- A steady supplier leaves nothing else to be kept. -/
theorem World.Effect.snapshot_of_steady (steady : setting.terms.supplier.IsSteady products)
    (kept : ∀ products', w.catalog.snapshot = some products' → products' = products)
    (h : World.Effect setting w action next) :
    ∀ products', next.catalog.snapshot = some products' → products' = products := by
  intro products' snapshot
  rw [h.snapshot] at snapshot
  cases ending : w.ending? setting action with
  | none =>
    rw [ending] at snapshot
    exact kept _ snapshot
  | some e =>
    rw [ending, Option.bind_some, Ending.products?, World.outcome_of_ending? ending, steady]
      at snapshot
    exact (Option.some.inj snapshot).symm

/-! ### Who comes -/

/-- Who comes in with an action. -/
def Action.arrival? : Action → Option World.Arrival
  | .enter arrival => some arrival
  | _ => none

/-- Who has come in with some moves, in order. -/
def arrivals (moves : List Move) : List World.Arrival := moves.filterMap (·.action.arrival?)

theorem arrivals_append (moves moves' : List Move) :
    arrivals (moves ++ moves') = arrivals moves ++ arrivals moves' := List.filterMap_append

theorem arrivals_snoc (moves : List Move) (m : Move) :
    arrivals (moves ++ [m]) = arrivals moves ++ m.action.arrival?.toList := by
  rw [arrivals_append]
  cases h : m.action.arrival? <;> simp [arrivals, h]

/-- Everybody who comes in is a client from then on. -/
theorem World.Effect.length_clients (h : World.Effect setting w action next) :
    next.clients.length = w.clients.length + action.arrival?.toList.length := by
  cases h with
  | consult intent opening begun metrics ids log => exact List.length_append
  | dispatch intent reply metrics ids => exact List.length_append
  | visit client effect step metrics log => exact List.length_set
  | work worker? effect => rfl
  | start interval => rfl
  | signal index value => rfl
  | close index => rfl
  | wait duration => rfl

/-! ### What requests are answered -/

/-- What a request is answered as long as the supplier has the same products. -/
def Setting.responseTo (setting : Setting) (products : List Product) (r : Web.Request) :
    Web.Response :=
  headOnly r (match setting.plan [] r with
    | .inl response => response
    | .inr order => order.response setting.isTraced (.ok products))

/-- A client who came with a request waits for what its order leads to, or has been answered what
there is to answer. -/
def Client.Suits (setting : Setting) (products : List Product) : World.Arrival → Client → Prop
  | .request r, .visiting purpose _ => ∃ id order,
      purpose = .serve ⟨r, id, order⟩ ∧ setting.plan [] r = .inr order
  | .request r, .answered reply => ∃ sent, reply = .response sent ∧
      sent.shown = (setting.responseTo products r).shown
  | .fetch, _ | .refresh, _ => True

/-- A part of a visit that is given the products, if anything, leaves a suitable client. -/
theorem Client.suits_after {r : Web.Request} {id : List Char} {order : Order}
    {result : Visit ⊕ Outcome} (usual : setting.plan [] r = .inr order)
    (given : ∀ outcome, result = .inr outcome → outcome = .ok products) :
    (Client.after setting (.serve ⟨r, id, order⟩) result).Suits setting products (.request r) := by
  cases result with
  | inl visit => exact ⟨id, order, rfl, usual⟩
  | inr outcome =>
    obtain rfl := given outcome rfl
    obtain ⟨sent, reply, shown⟩ := Purpose.exists_reply setting ⟨r, id, order⟩ (.ok products)
    refine ⟨sent, reply, ?_⟩
    rw [Setting.responseTo, usual]
    exact shown

/-- Whoever comes in is a suitable client. -/
theorem World.exists_enter_suits (usual : setting.routes = routes)
    (kept : ∀ products', w.catalog.snapshot = some products' → products' = products)
    (arrival : Arrival) : ∃ c, (w.enter setting arrival).clients = w.clients ++ [c] ∧
      c.Suits setting products arrival := by
  cases arrival with
  | fetch =>
    have intent : Arrival.purpose? setting w .fetch = some .fetch := rfl
    obtain ⟨s, result, -, clients, -⟩ := World.enter_of_purpose intent
    exact ⟨_, clients, trivial⟩
  | refresh =>
    have intent : Arrival.purpose? setting w .refresh = some .refresh := rfl
    obtain ⟨s, result, -, clients, -⟩ := World.enter_of_purpose intent
    exact ⟨_, clients, trivial⟩
  | request r =>
    have plan : setting.plan (r.id (setting.freshId w.ids)) r = setting.plan [] r :=
      Setting.plan_congr usual _ _ r
    cases planned : setting.plan [] r with
    | inl response =>
      obtain ⟨sent, metrics, enters, shown, -⟩ := World.enter_of_response (plan.trans planned)
      refine ⟨_, congrArg World.clients enters, sent, rfl, ?_⟩
      rw [Setting.responseTo, planned]
      exact shown
    | inr order =>
      obtain ⟨s, result, opening, clients, -⟩ :=
        World.enter_of_purpose (World.purpose?_of_order (plan.trans planned))
      refine ⟨_, clients, Client.suits_after planned ?_⟩
      rintro outcome rfl
      exact opening.outcome_of_steady kept

/-! ### A run with a steady supplier -/

/-- What holds in a run with a steady supplier. -/
structure Steady (setting : Setting) (products : List Product) (moves : List Move) (w : World) :
    Prop where
  /-- Nothing but the products of the supplier is kept. -/
  kept : ∀ products', w.catalog.snapshot = some products' → products' = products
  /-- Everybody who came is a client. -/
  length : w.clients.length = (arrivals moves).length
  /-- Everybody waits for the right thing, or has been answered right. -/
  suits : ∀ (index : Nat) arrival (c : Client), (arrivals moves)[index]? = some arrival →
    w.clients[index]? = some c → c.Suits setting products arrival

/-- A client who has come before goes on to wait for the right thing, or is answered right. -/
theorem Steady.suits_next (h : Steady setting products moves w)
    (steady : setting.terms.supplier.IsSteady products)
    (effect : World.Effect setting w action next) {index : Nat} {arrival : World.Arrival}
    {c : Client} (came : (arrivals moves)[index]? = some arrival)
    (client : next.clients[index]? = some c) : c.Suits setting products arrival := by
  have there : index < w.clients.length := h.length ▸ (List.getElem?_eq_some_iff.mp came).1
  obtain ⟨before, client'⟩ : ∃ before, w.clients[index]? = some before :=
    ⟨_, List.getElem?_eq_getElem there⟩
  have suits := h.suits index arrival before came client'
  rcases effect.life client' with ⟨same, -⟩ | ⟨purpose, visit, s, result, rfl, visits, after, -⟩
  · obtain rfl := Option.some.inj (same.symm.trans client)
    exact suits
  · obtain rfl := Option.some.inj (after.symm.trans client)
    cases arrival with
    | fetch => trivial
    | refresh => trivial
    | request r =>
      obtain ⟨id, order, rfl, planned⟩ := suits
      refine Client.suits_after planned ?_
      rintro outcome rfl
      exact visits.outcome_of_steady steady h.kept

theorem Steady.step (usual : setting.routes = routes)
    (steady : setting.terms.supplier.IsSteady products) (h : Steady setting products moves w)
    (act : w.act? setting action = some next) :
    Steady setting products (moves ++ [⟨w, action, next⟩]) next := by
  have effect : World.Effect setting w action next := World.effect_of_act? act
  constructor
  case kept => exact effect.snapshot_of_steady steady h.kept
  case length => rw [arrivals_snoc, List.length_append, ← h.length, effect.length_clients]
  case suits =>
    intro index arrival c came client
    rw [arrivals_snoc] at came
    by_cases there : index < (arrivals moves).length
    · rw [List.getElem?_append_left there] at came
      exact h.suits_next steady effect came client
    · -- it is the one who comes in
      rw [List.getElem?_append_right (Nat.le_of_not_lt there)] at came
      cases action with
      | enter arrival' =>
        obtain ⟨new, clients, suits⟩ := World.exists_enter_suits usual h.kept arrival'
        obtain rfl := Option.some.inj act
        rw [clients, List.getElem?_append_right (h.length ▸ Nat.le_of_not_lt there)] at client
        obtain rfl := List.mem_singleton.mp (List.mem_of_getElem? came)
        obtain rfl := List.mem_singleton.mp (List.mem_of_getElem? client)
        exact suits
      | client index => cases came
      | worker index attention => cases came
      | start interval => cases came
      | signal index value => cases came
      | close index => cases came
      | wait duration => cases came

/-- **With a steady supplier everybody is answered right**, and what is right does not depend on
whether products are kept. -/
theorem Run.steady (usual : setting.routes = routes)
    (steady : setting.terms.supplier.IsSteady products) (h : Run setting .initial moves w) :
    Steady setting products moves w := by
  induction h with
  | refl =>
    -- nothing is kept, and nobody has come
    constructor
    case kept => intro products' no; cases no
    case length => rfl
    case suits => intro index arrival c no; cases no
  | snoc run act ih => exact ih.step usual steady act

/-! ### A cache does not show -/

/-- What a client has been answered to its request, if it has been. -/
def World.shown? (w : World) (index : Nat) : Option (Nat × List Char) :=
  match w.clients[index]? with
  | some (.answered (.response sent)) => some sent.shown
  | _ => none

/-- A request that has been answered has been answered right. -/
theorem Steady.eq_of_shown? (h : Steady setting products moves w) {index : Nat} {r : Web.Request}
    (came : (arrivals moves)[index]? = some (.request r)) {answer : Nat × List Char}
    (shown : w.shown? index = some answer) : answer = (setting.responseTo products r).shown := by
  unfold World.shown? at shown
  split at shown
  · next sent client =>
    obtain ⟨sent', reply, right⟩ := h.suits index _ _ came client
    obtain rfl := Reply.response.inj reply
    rw [← Option.some.inj shown, right]
  · cases shown

/-- A request is answered, if only the clients go on and time passes. -/
theorem Run.settled (usual : setting.routes = routes)
    (steady : setting.terms.supplier.IsSteady products) (h : Run setting .initial moves w) :
    ∃ more next, Run setting w more next ∧ (∀ m ∈ more, m.action.isOnward = true) ∧
      ∀ (index : Nat) r, (arrivals moves)[index]? = some (.request r) →
        (next.shown? index).isSome = true := by
  obtain ⟨more, next, run, onward, all⟩ : ∃ more next, Run setting w more next ∧
      (∀ m ∈ more, m.action.isOnward = true) ∧ ∀ c ∈ next.clients, c.isAnswered = true :=
    h.orderly.settles
  have steadily := (h.append run).steady usual steady
  refine ⟨more, next, run, onward, fun index r came => ?_⟩
  have before : index < (arrivals moves).length := (List.getElem?_eq_some_iff.mp came).1
  have came : (arrivals (moves ++ more))[index]? = some (.request r) := by
    rw [arrivals_append, List.getElem?_append_left before]
    exact came
  have there : index < next.clients.length :=
    steadily.length ▸ (List.getElem?_eq_some_iff.mp came).1
  obtain ⟨c, client⟩ : ∃ c, next.clients[index]? = some c := ⟨_, List.getElem?_eq_getElem there⟩
  have suits := steadily.suits index _ c came client
  have answered := all c (List.mem_of_getElem? client)
  cases c with
  | visiting purpose visit => cases answered
  | answered reply =>
    obtain ⟨sent, rfl, -⟩ := suits
    rw [World.shown?, client]
    rfl

/-- Nobody can tell two services apart by what they answer to requests. -/
structure Indistinguishable (setting setting' : Setting) : Prop where
  /-- Whenever and beside whatever else a request comes, its answers say the same. -/
  same : ∀ moves w moves' w', Run setting .initial moves w → Run setting' .initial moves' w' →
    ∀ (index index' : Nat) r, (arrivals moves)[index]? = some (.request r) →
      (arrivals moves')[index']? = some (.request r) →
      ∀ answer answer', w.shown? index = some answer → w'.shown? index' = some answer' →
        answer = answer'
  /-- The one service can always answer all requests that have come. -/
  answers : ∀ moves w, Run setting .initial moves w → ∃ more next, Run setting w more next ∧
    (∀ m ∈ more, m.action.isOnward = true) ∧
    ∀ (index : Nat) r, (arrivals moves)[index]? = some (.request r) →
      (next.shown? index).isSome = true
  /-- So can the other one. -/
  answers' : ∀ moves w, Run setting' .initial moves w → ∃ more next, Run setting' w more next ∧
    (∀ m ∈ more, m.action.isOnward = true) ∧
    ∀ (index : Nat) r, (arrivals moves)[index]? = some (.request r) →
      (next.shown? index).isSome = true

/-- The same setting with or without a cache, on some terms. -/
def Setting.keeping (setting : Setting) (cached : Bool) (terms : Terms) : Setting :=
  { setting with isCached := cached, terms }

/-- **A cache does not show** as long as the supplier always has the same products, whatever time
its answers take with and without the cache. -/
theorem caching_transparent (usual : setting.routes = routes) {terms terms' : Terms}
    (steady : terms.supplier.IsSteady products) (steady' : terms'.supplier.IsSteady products) :
    Indistinguishable (setting.keeping true terms) (setting.keeping false terms') := by
  constructor
  case same =>
    intro moves w moves' w' run run' index index' r came came' answer answer' shown shown'
    have one : Steady (setting.keeping true terms) products moves w := run.steady usual steady
    have other : Steady (setting.keeping false terms') products moves' w' :=
      run'.steady usual steady'
    rw [one.eq_of_shown? came shown, other.eq_of_shown? came' shown']
    rfl
  case answers =>
    intro moves w run
    exact run.settled usual steady
  case answers' =>
    intro moves w run
    exact run.settled usual steady'

/-- A lamp. -/
def lamp : Product := ⟨1, "Lamp", .one, "instock", some 4, "Home", [], true, none, none⟩

/-- A supplier that has a lamp, after some time. -/
def lampSupplier (delay : Nat) : Catalog.Supplier := fun _ => ⟨.ok [lamp], delay⟩

/-- A service that keeps the lamp that a worker or a reader has got, and a slower one that does not,
list it alike. -/
theorem caching_transparent_lamp : ∃ setting moves w moves' w',
    setting = Setting.cached ⟨lampSupplier 5, .standard⟩ ∧ setting.routes = routes ∧
    (lampSupplier 5).IsSteady [lamp] ∧ (lampSupplier 70).IsSteady [lamp] ∧
    Run (setting.keeping true ⟨lampSupplier 5, .standard⟩) .initial moves w ∧
    (w.shown? 0).isSome = true ∧
    Run (setting.keeping false ⟨lampSupplier 70, .none⟩) .initial moves' w' ∧
    (w'.shown? 0).isSome = true ∧
    Indistinguishable (setting.keeping true ⟨lampSupplier 5, .standard⟩)
      (setting.keeping false ⟨lampSupplier 70, .none⟩) := by
  have kept : (World.initial.play?
      ((Setting.cached ⟨lampSupplier 5, .standard⟩).keeping true ⟨lampSupplier 5, .standard⟩)
      [.start 20000, .worker 0 .ticks, .enter (.request ⟨"GET", "/products", [], []⟩), .wait 5,
        .worker 0 .ticks, .client 0]).any (fun result => (result.2.shown? 0).isSome) = true := by
    decide +kernel
  have asked : (World.initial.play?
      ((Setting.cached ⟨lampSupplier 5, .standard⟩).keeping false ⟨lampSupplier 70, .none⟩)
      [.enter (.request ⟨"GET", "/products", [], []⟩), .wait 70, .client 0]).any
      (fun result => (result.2.shown? 0).isSome) = true := by
    decide +kernel
  obtain ⟨moves, w, run, shown⟩ := Run.exists_of_play? kept
  obtain ⟨moves', w', run', shown'⟩ := Run.exists_of_play? asked
  exact ⟨_, moves, w, moves', w', rfl, rfl, fun _ => rfl, fun _ => rfl, run, shown, run', shown',
    caching_transparent rfl (fun _ => rfl) fun _ => rfl⟩

end Service

end ProductSegments
