import ProductSegments.Proofs.Service.Coalescing
import ProductSegments.Proofs.Service.Snapshot

/-!
# Reading a cold catalog

Readers that find no products refresh the catalog, but never two of them at a time, and none once
there are products.  So all refreshes that readers begin fail, except perhaps the last one.

## Main definitions

* `Service.Move.beginsLoad`, `Service.Move.loadEnding?` — a reader begins or ends a refresh.
* `Service.loadsBegun`, `Service.loadOutcomes` — the refreshes that the readers of a run have begun,
  and how those have ended that have.

## Main results

* `Service.Run.silent` — whoever waits while products are kept never calls the supplier.
* `Service.Run.loadsBegun_eq`, `Service.Run.load_failed` — all refreshes of readers but the last one
  fail.
* `Service.Run.cold_reads` — these and what the readers of a cold catalog are given.
-/

namespace ProductSegments

open Catalog (State Visit Cycle Worker Outcome Ending)

namespace Service

variable {setting : Setting} {w next : World} {action : Action} {moves : List Move}

/-! ### Readers do not refresh once there are products -/

/-- A reader that comes while products are kept is given them at once, and calls nobody. -/
theorem World.Effect.served (effect : World.Effect setting w action next)
    (cached : setting.isCached = true) {arrival : World.Arrival} {purpose : Purpose}
    {products : List Product} (enters : action = .enter arrival)
    (intent : arrival.purpose? setting w = some purpose) (read : purpose.isRefresh = false)
    (kept : w.catalog.snapshot = some products) :
    next.catalog.calls = w.catalog.calls ∧
      w.return? setting action = some ⟨w.clients.length, purpose, .ok products⟩ ∧
      next.clients = w.clients ++ [.answered (purpose.reply setting (.ok products))] := by
  subst enters
  cases effect with
  | consult intent' opening begun metrics ids log =>
    obtain rfl := Option.some.inj (intent'.symm.trans intent)
    rw [World.return?_enter intent begun]
    obtain ⟨rfl, rfl⟩ := opening.eq_of_snapshot cached read kept
    exact ⟨rfl, rfl, rfl⟩
  | dispatch intent' reply metrics ids =>
    have no := intent'.symm.trans intent
    cases no

/-- Whoever does not refresh while products are kept goes on not to, and calls nobody. -/
theorem World.Effect.silent (effect : World.Effect setting w action next)
    (kept : w.catalog.snapshot ≠ none) {index : Nat}
    (idle : ∃ c, w.clients[index]? = some c ∧ c.isIdle = true) :
    (∃ c, next.clients[index]? = some c ∧ c.isIdle = true) ∧
      (action = .client index → next.catalog.calls = w.catalog.calls) := by
  obtain ⟨c, client, isIdle⟩ := idle
  have there : index < w.clients.length := (List.getElem?_eq_some_iff.mp client).1
  have came : ∀ new, (w.clients ++ [new])[index]? = some c := by
    intro new
    rw [List.getElem?_append_left there]
    exact client
  cases effect with
  | consult intent opening begun metrics ids log =>
    exact ⟨⟨c, came _, isIdle⟩, fun no => by cases no⟩
  | dispatch intent reply metrics ids => exact ⟨⟨c, came _, isIdle⟩, fun no => by cases no⟩
  | @visit other purpose visit s result client' effect step metrics log =>
    by_cases same : other = index
    · subst same
      obtain rfl := Option.some.inj (client'.symm.trans client)
      -- it waits for its turn, which brings it products
      cases effect with
      | served turn kept' =>
        exact ⟨⟨_, List.getElem?_set_self there, rfl⟩, fun _ => rfl⟩
      | turn turn cold => exact absurd cold kept
      | load onward => cases isIdle
      | loaded ending => cases isIdle
      | refresh onward => cases isIdle
      | refreshed ending => cases isIdle
      | asked due => cases isIdle
    · refine ⟨⟨c, ?_, isIdle⟩, fun h => absurd (Action.client.inj h) same⟩
      rw [List.getElem?_set_ne same]
      exact client
  | work worker? effect => exact ⟨⟨c, client, isIdle⟩, fun no => by cases no⟩
  | start interval => exact ⟨⟨c, client, isIdle⟩, fun no => by cases no⟩
  | signal index value => exact ⟨⟨c, client, isIdle⟩, fun no => by cases no⟩
  | close index => exact ⟨⟨c, client, isIdle⟩, fun no => by cases no⟩
  | wait duration => exact ⟨⟨c, client, isIdle⟩, fun no => by cases no⟩

/-- **Whoever does not refresh while products are kept never calls the supplier**, however the run
goes on. -/
theorem Run.silent (h : Run setting w moves next) (kept : w.catalog.snapshot ≠ none) {index : Nat}
    (idle : ∃ c, w.clients[index]? = some c ∧ c.isIdle = true) :
    ∀ m ∈ moves, m.action = .client index → m.after.catalog.calls = m.before.catalog.calls := by
  have all : next.catalog.snapshot ≠ none ∧
      (∃ c, next.clients[index]? = some c ∧ c.isIdle = true) ∧
      ∀ m ∈ moves, m.action = .client index → m.after.catalog.calls = m.before.catalog.calls := by
    induction h with
    | refl => exact ⟨kept, idle, fun m hm => absurd hm List.not_mem_nil⟩
    | snoc run act ih =>
      obtain ⟨kept, idle, before⟩ := ih
      have effect := World.effect_of_act? act
      obtain ⟨idle', calls⟩ := effect.silent kept idle
      refine ⟨effect.snapshot_ne_none kept, idle', ?_⟩
      exact List.forall_mem_append.mpr ⟨before, List.forall_mem_singleton.mpr calls⟩
  exact all.2.2

/-! ### The refreshes that readers begin -/

/-- The client that comes with an action or goes on with it. -/
def World.client? (w : World) : Action → Option Nat
  | .enter _ => some w.clients.length
  | .client index => some index
  | _ => none

/-- The client with an index is a reader that refreshes. -/
def World.isLoadingAt (w : World) (index : Nat) : Bool := w.clients[index]?.any Client.isLoading

/-- A reader begins a refresh with the move. -/
def Move.beginsLoad (m : Move) : Bool :=
  (m.before.client? m.action).any fun index =>
    !m.before.isLoadingAt index && m.after.isLoadingAt index

/-- How the refresh of a reader ends with the move. -/
def Move.loadEnding? (setting : Setting) (m : Move) : Option Ending :=
  if (m.before.client? m.action).any m.before.isLoadingAt then m.ending? setting else none

/-- How many refreshes the readers of a run have begun. -/
def loadsBegun (moves : List Move) : Nat := moves.countP Move.beginsLoad

/-- How the refreshes of the readers of a run have ended, the last ones at the end. -/
def loadOutcomes (setting : Setting) (moves : List Move) : List Outcome :=
  moves.filterMap fun m => (m.loadEnding? setting).map Ending.outcome

/-- A reader that begins a refresh ends none. -/
theorem Move.loadEnding?_of_beginsLoad {m : Move} (begins : m.beginsLoad = true) :
    m.loadEnding? setting = none := by
  unfold Move.beginsLoad at begins
  unfold Move.loadEnding?
  cases hc : m.before.client? m.action with
  | none => rfl
  | some index =>
    rw [hc, Option.any_some, Bool.and_eq_true, Bool.not_eq_true'] at begins
    rw [Option.any_some, begins.1]
    rfl

theorem World.isLoadingAt_append (w : World) {clients : List Client} {c : Client}
    (h : next.clients = clients ++ [c]) (same : w.clients = clients) :
    w.isLoadingAt w.clients.length = false ∧ next.isLoadingAt w.clients.length = c.isLoading := by
  rw [isLoadingAt, isLoadingAt, h, same, List.getElem?_eq_none (Nat.le_refl _),
    List.getElem?_append_right (Nat.le_refl _), Nat.sub_self]
  exact ⟨rfl, rfl⟩

/-- The number of readers that refresh goes with the beginnings and ends of their refreshes. -/
theorem World.Effect.loads (effect : World.Effect setting w action next) :
    next.loads + (Move.loadEnding? setting ⟨w, action, next⟩).isSome.toNat =
      w.loads + (Move.beginsLoad ⟨w, action, next⟩).toNat := by
  have came : ∀ arrival c, action = .enter arrival → next.clients = w.clients ++ [c] →
      next.loads + (Move.loadEnding? setting ⟨w, action, next⟩).isSome.toNat =
        w.loads + (Move.beginsLoad ⟨w, action, next⟩).toNat := by
    rintro arrival c rfl clients
    obtain ⟨no, own⟩ := World.isLoadingAt_append w clients rfl
    have begins : Move.beginsLoad ⟨w, .enter arrival, next⟩ = c.isLoading := by
      simp only [Move.beginsLoad, World.client?, Option.any_some, no, own, Bool.not_false,
        Bool.true_and]
    have ends : Move.loadEnding? setting ⟨w, .enter arrival, next⟩ = none := by
      simp only [Move.loadEnding?, World.client?, Option.any_some, no, Bool.false_eq_true, if_false]
    rw [begins, ends, World.loads_append clients, List.countP_singleton]
    cases c.isLoading <;> rfl
  cases effect with
  | consult intent opening begun metrics ids log => exact came _ _ rfl rfl
  | dispatch intent reply metrics ids => exact came _ _ rfl rfl
  | @visit index purpose visit s result client effect step metrics log =>
    have there : index < w.clients.length := (List.getElem?_eq_some_iff.mp client).1
    have loads := @countP_isLoading_set _ index _ (Client.after setting purpose result) client
    simp only [Move.loadEnding?, Move.beginsLoad, World.client?, Option.any_some,
      World.isLoadingAt, client, List.getElem?_set_self there, Move.ending?,
      World.ending?_client client]
    show List.countP _ _ + _ = List.countP _ _ + _
    cases effect with
    | served turn kept => exact loads
    | turn turn cold => exact loads
    | load onward =>
      simp only [Visit.cycle?, Option.bind_some, onward.ending?]
      exact Nat.add_right_cancel loads
    | loaded ending =>
      simp only [Visit.cycle?, Option.bind_some, ending]
      exact loads
    | refresh onward => exact loads
    | refreshed ending => exact loads
    | asked due => exact loads
  | work worker? effect => rfl
  | start interval => rfl
  | signal index value => rfl
  | close index => rfl
  | wait duration => rfl

theorem loadsBegun_snoc (moves : List Move) (m : Move) :
    loadsBegun (moves ++ [m]) = loadsBegun moves + m.beginsLoad.toNat := by
  rw [loadsBegun, loadsBegun, List.countP_append, List.countP_singleton]
  cases m.beginsLoad <;> rfl

theorem loadOutcomes_snoc (moves : List Move) (m : Move) :
    loadOutcomes setting (moves ++ [m]) =
      loadOutcomes setting moves ++ ((m.loadEnding? setting).map Ending.outcome).toList := by
  rw [loadOutcomes, List.filterMap_append, loadOutcomes]
  cases h : (m.loadEnding? setting).map Ending.outcome <;> simp [h]

/-- The refreshes that readers have begun have ended or are under way. -/
theorem Run.loadsBegun_eq (h : Run setting .initial moves w) :
    loadsBegun moves = (loadOutcomes setting moves).length + w.loads := by
  induction h with
  | refl => rfl
  | @snoc moves v next action run act ih =>
    have step := (World.effect_of_act? act).loads
    rw [loadsBegun_snoc, loadOutcomes_snoc, List.length_append, ih]
    have one : ((Move.loadEnding? setting ⟨v, action, next⟩).map Ending.outcome).toList.length =
        (Move.loadEnding? setting ⟨v, action, next⟩).isSome.toNat := by
      cases Move.loadEnding? setting ⟨v, action, next⟩ <;> rfl
    rw [one]
    omega

/-- The refresh of a reader is a refresh. -/
theorem exists_of_mem_loadOutcomes {outcome : Outcome}
    (h : outcome ∈ loadOutcomes setting moves) :
    ∃ m ∈ moves, ∃ e, m.ending? setting = some e ∧ e.outcome = outcome := by
  obtain ⟨m, hm, he⟩ := List.mem_filterMap.mp h
  obtain ⟨e, ends, rfl⟩ := Option.map_eq_some_iff.mp he
  unfold Move.loadEnding? at ends
  split at ends
  · exact ⟨m, hm, e, ends, rfl⟩
  · cases ends

/-- A reader begins a refresh only as long as nothing is kept, and no other refresh ends then. -/
theorem World.Effect.cold_of_beginsLoad (effect : World.Effect setting w action next)
    (begins : Move.beginsLoad ⟨w, action, next⟩ = true) :
    w.catalog.snapshot = none ∧ w.ending? setting action = none := by
  have came : ∀ c, next.clients = w.clients ++ [c] →
      next.isLoadingAt w.clients.length = c.isLoading := by
    intro c clients
    exact (World.isLoadingAt_append w clients rfl).2
  cases effect with
  | consult intent opening begun metrics ids log =>
    simp only [Move.beginsLoad, World.client?, Option.any_some, came _ rfl, Bool.and_eq_true]
      at begins
    cases opening with
    | turn cached read cold free => exact ⟨cold, rfl⟩
    | ask direct => cases begins.2
    | refresh cached refresh => cases begins.2
    | served cached read kept => cases begins.2
    | queue cached read cold taken => cases begins.2
  | dispatch intent reply metrics ids =>
    simp only [Move.beginsLoad, World.client?, Option.any_some, came _ rfl, Bool.and_eq_true]
      at begins
    cases begins.2
  | @visit index purpose visit s result client effect step metrics log =>
    have there : index < w.clients.length := (List.getElem?_eq_some_iff.mp client).1
    simp only [Move.beginsLoad, World.client?, Option.any_some, World.isLoadingAt, client,
      List.getElem?_set_self there, Bool.and_eq_true] at begins
    cases effect with
    | turn turn cold => exact ⟨cold, World.ending?_client client⟩
    | served turn kept => cases begins.2
    | load onward => cases begins.1
    | loaded ending => cases begins.1
    | refresh onward => cases begins.2
    | refreshed ending => cases begins.2
    | asked due => cases begins.2
  | work worker? effect => cases begins
  | start interval => cases begins
  | signal index value => cases begins
  | close index => cases begins
  | wait duration => cases begins

/-- **All refreshes that readers have begun have failed, except perhaps the last one.** -/
theorem Run.load_failed (h : Run setting .initial moves w) :
    ∀ outcome ∈ (loadOutcomes setting moves).take (loadsBegun moves - 1),
      outcome.toOption = none := by
  induction h with
  | refl =>
    intro outcome ho
    cases ho
  | @snoc moves v next action run act ih =>
    have effect := World.effect_of_act? act
    have count := run.loadsBegun_eq
    have few := run.orderly.loads_le_one
    -- all refreshes but the last one had ended before the move
    have kept : (loadOutcomes setting moves).length ≥ loadsBegun moves - 1 := by omega
    rw [loadsBegun_snoc, loadOutcomes_snoc]
    cases begins : Move.beginsLoad ⟨v, action, next⟩ with
    | false =>
      rw [Bool.toNat_false, Nat.add_zero, List.take_append_of_le_length kept]
      exact ih
    | true =>
      -- nothing is kept, so nobody has succeeded before
      intro outcome ho
      obtain ⟨cold, -⟩ := effect.cold_of_beginsLoad begins
      have step := effect.loads
      have few' := (effect.orderly run.orderly).loads_le_one
      rw [begins, Move.loadEnding?_of_beginsLoad begins, Option.isSome_none, Bool.toNat_false,
        Bool.toNat_true] at step
      have all : loadsBegun moves + true.toNat - 1 = (loadOutcomes setting moves).length := by
        rw [Bool.toNat_true]
        omega
      rw [all, List.take_append_of_le_length (Nat.le_refl _), List.take_length] at ho
      obtain ⟨m, hm, e, ends, rfl⟩ := exists_of_mem_loadOutcomes ho
      have failed : stored setting moves = [] := by
        have last := run.snapshot_eq
        rw [cold] at last
        refine List.getLast?_eq_none_iff.mp ?_
        cases hs : (stored setting moves).getLast? with
        | none => rfl
        | some products =>
          rw [hs] at last
          cases last
      exact stored_eq_nil_iff.mp failed m hm e ends

/-- If the supplier always answers with products, readers begin one refresh at most. -/
theorem Run.loadsBegun_le_one (h : Run setting .initial moves w)
    (ok : ∀ n, (setting.terms.supplier n).outcome.toOption ≠ none) : loadsBegun moves ≤ 1 := by
  refine Nat.le_of_not_lt ?_
  intro two
  have count := h.loadsBegun_eq
  have few := h.orderly.loads_le_one
  -- the first one has ended by now, and not with a failure
  obtain ⟨outcome, outcomes, ho⟩ : ∃ outcome outcomes,
      loadOutcomes setting moves = outcome :: outcomes := by
    refine List.exists_cons_of_length_pos ?_
    omega
  obtain ⟨n, hn⟩ : ∃ n, loadsBegun moves - 1 = n + 1 := ⟨loadsBegun moves - 2, by omega⟩
  have failed := h.load_failed outcome (by rw [ho, hn]; exact List.mem_cons_self)
  obtain ⟨m, hm, e, ends, rfl⟩ := exists_of_mem_loadOutcomes (ho ▸ List.mem_cons_self)
  rw [World.outcome_of_ending? ends] at failed
  exact ok _ failed

/-! ### The readers of a run -/

/-- How readers share their refreshes in a run that begins with nobody and ends in a state, and in
the runs that go on from there. -/
structure ColdReads (setting : Setting) (moves : List Move) (w : World) : Prop where
  /-- At most one refresh that a reader has begun is under way. -/
  one : w.loads ≤ 1
  /-- A reader that comes while products are kept is given them at once, and calls nobody. -/
  served : ∀ m ∈ moves, ∀ arrival purpose products, m.action = .enter arrival →
    arrival.purpose? setting m.before = some purpose → purpose.isRefresh = false →
    m.before.catalog.snapshot = some products →
    m.after.catalog.calls = m.before.catalog.calls ∧
      m.return? setting = some ⟨m.before.clients.length, purpose, .ok products⟩ ∧
      m.after.clients = m.before.clients ++ [.answered (purpose.reply setting (.ok products))]
  /-- Whoever has been answered, or waits for its turn, while products are kept never calls the
  supplier. -/
  silent : w.catalog.snapshot ≠ none →
    ∀ index c, w.clients[index]? = some c → c.isIdle = true →
    ∀ later next, Run setting w later next → ∀ m ∈ later, m.action = .client index →
      m.after.catalog.calls = m.before.catalog.calls
  /-- The refreshes that readers have begun have ended or are under way. -/
  count : loadsBegun moves = (loadOutcomes setting moves).length + w.loads
  /-- All of them but the last one have failed. -/
  failed : ∀ outcome ∈ (loadOutcomes setting moves).take (loadsBegun moves - 1),
    outcome.toOption = none
  /-- If the supplier always answers with products, there is one at most. -/
  once : (∀ n, (setting.terms.supplier n).outcome.toOption ≠ none) → loadsBegun moves ≤ 1
  /-- If nothing is kept and nobody waits, and then `n` readers come and nobody else refreshes,
  there is a `k` such that the refreshes of the first `k` readers fail, the next one succeeds, and
  each reader that is given something is given the outcome of its own refresh, or of the one that
  has succeeded.  No other calls are made. -/
  shared : w.IsCold → ∀ later next n, Run setting w later next →
    (∀ m ∈ later, m.IsQuiet setting) → next.clients.length = w.clients.length + n →
    ∃ k ≤ n, Fail setting.terms w.catalog.calls.length k ∧
      (k < n → (setting.terms.refreshAt w.catalog.calls.length k).outcome.toOption ≠ none) ∧
      (∀ m ∈ later, m.Gives setting w.clients.length w.catalog.calls.length k) ∧
      ((∀ c ∈ next.clients, c.isAnswered = true) → next.catalog.calls.length =
        setting.terms.firstCall w.catalog.calls.length (min n (k + 1)))
  /-- Each of them has been given something when nobody waits any longer. -/
  given : ∀ later next, Run setting w later next → (∀ m ∈ later, m.IsQuiet setting) →
    (∀ c ∈ next.clients, c.isAnswered = true) →
    ∀ index, w.clients.length ≤ index → index < next.clients.length →
      ∃ m ∈ later, ∃ r, m.return? setting = some r ∧ r.client = index
  /-- Waiting and letting clients go on is enough for nobody to wait any longer. -/
  settles : ∃ later next, Run setting w later next ∧
    (∀ m ∈ later, m.action.isOnward = true) ∧ ∀ c ∈ next.clients, c.isAnswered = true
  /-- No client takes more steps than it has left. -/
  bounded : ∀ later next, Run setting w later next → ∀ index < w.clients.length,
    later.countP (·.action = .client index) ≤ w.remainingOf setting index

/-- **Readers of a cold catalog share their refreshes**, in whatever order the steps of readers,
refreshes and workers come, by whatever policy calls are repeated and whatever the supplier
answers. -/
theorem Run.cold_reads (cached : setting.isCached = true) (h : Run setting .initial moves w) :
    ColdReads setting moves w := by
  constructor
  case one => exact h.orderly.loads_le_one
  case served =>
    intro m hm arrival purpose products enters intent read kept
    obtain ⟨-, -, -, -, act, -⟩ := h.of_mem hm
    exact (World.effect_of_act? act).served cached enters intent read kept
  case silent =>
    intro kept index c client idle later next run
    exact run.silent kept ⟨c, client, idle⟩
  case count => exact h.loadsBegun_eq
  case failed => exact h.load_failed
  case once => exact h.loadsBegun_le_one
  case shared =>
    intro cold later next n run quiet came
    exact run.coalesced h.orderly cached cold quiet came
  case given =>
    intro later next run quiet all index came there
    have client := List.getElem?_eq_getElem there
    have answered := all _ (List.mem_of_getElem? client)
    cases hc : next.clients[index] with
    | visiting purpose visit =>
      rw [hc] at answered
      cases answered
    | answered reply =>
      rw [hc] at client
      exact run.exists_return quiet came client
  case settles => exact h.orderly.settles
  case bounded =>
    intro later next run index there
    exact run.count_client_le there

/-- Three readers come: the refresh of the first one fails, that of the second one succeeds. -/
theorem Run.cold_reads_three : ∃ moves w,
    Run (.cached ⟨faltering, .none⟩) .initial moves w ∧ loadsBegun moves = 2 ∧
    w.clients.length = 3 ∧ (∀ c ∈ w.clients, c.isAnswered = true) ∧
    ColdReads (.cached ⟨faltering, .none⟩) moves w := by
  have evaluated : (World.initial.play? (.cached ⟨faltering, .none⟩)
      [.enter .fetch, .enter .fetch, .enter .fetch, .client 0, .client 1, .wait 1, .client 1,
        .client 2]).any
      (fun result => loadsBegun result.1 = 2 && result.2.clients.length = 3 &&
        result.2.clients.all Client.isAnswered) = true := by
    decide +kernel
  obtain ⟨moves, w, run, shown⟩ := exists_of_play? evaluated
  simp only [Bool.and_eq_true, decide_eq_true_eq, List.all_eq_true] at shown
  obtain ⟨⟨two, three⟩, all⟩ := shown
  exact ⟨moves, w, run, two, three, all, cold_reads rfl run⟩

end Service

end ProductSegments
