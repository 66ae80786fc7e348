import ProductSegments.Proofs.Service.Event

/-!
# The snapshot of the catalog

Refreshes of readers, of clients who ask for one and of workers overlap in any way.  The snapshot is
the list of products that the refresh that succeeded last has stored, whole and in order.  A failure
never touches it, and a reader is given what it holds at the moment in which the reader is
answered.

## Main results

* `Service.Run.snapshot_eq` — the snapshot is the last list that was stored.
* `Service.World.Effect.snapshot_of_return` — a reader is given the snapshot.
* `Service.Run.snapshot_integrity` — both, with what a single refresh does.
-/

namespace ProductSegments

open Catalog (State Visit Cycle Worker Outcome Ending)

/-- What a refresh tells whoever asked for it: how many products it has stored. -/
def Catalog.Ending.count (e : Ending) : Except Catalog.Failure Nat := e.outcome.map List.length

namespace Service

variable {setting : Setting} {w next : World} {action : Action} {moves : List Move}

/-! ### The last list stored -/

/-- The snapshot is the last list that a run has stored; until then it is as it was. -/
theorem Run.snapshot_eq (h : Run setting w moves next) :
    next.catalog.snapshot = ((stored setting moves).getLast? <|> w.catalog.snapshot) := by
  induction h with
  | refl => rfl
  | @snoc moves v next action run act ih =>
    have step := (World.effect_of_act? act).snapshot
    have hm : Move.ending? setting ⟨v, action, next⟩ = v.ending? setting action := rfl
    rw [stored_snoc, hm, step]
    cases (v.ending? setting action).bind Ending.products? with
    | none => simpa using ih
    | some products => simp

/-- Once there is a snapshot, there always is one. -/
theorem World.Effect.snapshot_ne_none (h : Effect setting w action next)
    (some : w.catalog.snapshot ≠ none) : next.catalog.snapshot ≠ none := by
  rw [h.snapshot]
  cases (w.ending? setting action).bind Ending.products? with
  | none => exact some
  | some products => simp

/-! ### What a visit is given -/

namespace World

/-- Whoever is given products when a visit ends is given what the snapshot is at that moment. -/
theorem Effect.snapshot_of_return (h : Effect setting w action next)
    (cached : setting.isCached = true) (fits : ∀ c ∈ w.clients, c.Fits setting) {r : Return}
    (hr : w.return? setting action = some r) {products : List Product}
    (ok : r.outcome = .ok products) : next.catalog.snapshot = some products := by
  rw [h.snapshot]
  cases h.returned hr with
  | arrived cached read kept => rw [kept, Except.ok.inj ok]; rfl
  | turned client turn kept =>
    rw [ending?_client client, kept, Except.ok.inj ok]
    rfl
  | ended client cycle? ending =>
    -- the refresh stores the list that its caller is given
    dsimp only at ok
    rw [ending?_client client, cycle?, Option.bind_some, ending, Option.bind_some,
      Ending.products?, ok]
    rfl
  | asked client due =>
    have direct : setting.isCached = false := fits _ (List.mem_of_getElem? client)
    rw [direct] at cached
    exact absurd cached (by decide)

/-- A refresh on request returns what it has ended with. -/
theorem Effect.ending?_of_return (h : Effect setting w action next)
    (cached : setting.isCached = true) (fits : ∀ c ∈ w.clients, c.Fits setting) {r : Return}
    (hr : w.return? setting action = some r) (refresh : r.purpose.isRefresh = true) :
    ∃ call, w.ending? setting action = some ⟨call, r.outcome⟩ := by
  cases h.returned hr with
  | arrived cached read kept => exact absurd (read.symm.trans refresh) (by decide)
  | turned client turn kept =>
    have fit := fits _ (List.mem_of_getElem? client)
    exact absurd (fit.2.symm.trans refresh) (by decide)
  | @ended index purpose visit cycle e client cycle? ending =>
    exact ⟨e.call, by rw [ending?_client client, cycle?, Option.bind_some, ending]⟩
  | asked client due =>
    have direct : setting.isCached = false := fits _ (List.mem_of_getElem? client)
    rw [direct] at cached
    exact absurd cached (by decide)

end World

/-! ### The snapshot in a run -/

/-- The snapshot is sound in a run that begins with nobody and ends in a state. -/
structure SnapshotIntegrity (setting : Setting) (moves : List Move) (w : World) : Prop where
  /-- The snapshot is the list that the refresh that succeeded last has stored. -/
  last : w.catalog.snapshot = (stored setting moves).getLast?
  /-- There is none just as long as all refreshes have failed. -/
  none_iff : w.catalog.snapshot = none ↔
    ∀ m ∈ moves, ∀ e, m.ending? setting = some e → e.products? = none
  /-- Once there is a snapshot, there always is one. -/
  remains : ∀ m ∈ moves, m.before.catalog.snapshot ≠ none → m.after.catalog.snapshot ≠ none
  /-- A move with which no refresh ends leaves it alone, so calls and waits of a refresh do. -/
  kept : ∀ m ∈ moves, m.ending? setting = none →
    m.after.catalog.snapshot = m.before.catalog.snapshot
  /-- A refresh ends with the answer to its last call.  If it fails, it leaves the snapshot alone,
  and if it tells how many products it has stored, the snapshot has that many. -/
  ended : ∀ m ∈ moves, ∀ e, m.ending? setting = some e →
    e.outcome = (setting.terms.supplier e.call.index).outcome ∧
    match e.count with
    | .error _ => m.after.catalog.snapshot = m.before.catalog.snapshot
    | .ok n => ∃ products, e.outcome = .ok products ∧
        m.after.catalog.snapshot = some products ∧ products.length = n
  /-- A refresh on request returns what it has ended with. -/
  refreshed : ∀ m ∈ moves, ∀ r, m.return? setting = some r → r.purpose.isRefresh = true →
    ∃ call, m.ending? setting = some ⟨call, r.outcome⟩
  /-- Whoever is given products is given what the snapshot is in that very moment. -/
  read : ∀ m ∈ moves, ∀ r, m.return? setting = some r → ∀ products, r.outcome = .ok products →
    m.after.catalog.snapshot = some products
  /-- A reader whose own refresh has succeeded finds the snapshot that it returns. -/
  found : ∀ m ∈ moves, ∀ index purpose cycle e, m.action = .client index →
    m.before.clients[index]? = some (.visiting purpose (.loading cycle)) →
    cycle.ending? setting.terms m.before.catalog = some e →
    ∀ products, e.outcome = .ok products →
      (m.before.catalog.conclude e.outcome).snapshot ≠ none

theorem stored_eq_nil_iff : stored setting moves = [] ↔
    ∀ m ∈ moves, ∀ e, m.ending? setting = some e → e.products? = none := by
  rw [stored, List.filterMap_eq_nil_iff]
  constructor
  · intro h m hm e he
    have hn := h m hm
    rw [he] at hn
    exact hn
  · intro h m hm
    cases he : m.ending? setting with
    | none => rfl
    | some e => exact h m hm e he

/-- **The snapshot is sound**, in whatever order the steps of readers, refreshes and workers come,
by whatever policy calls are repeated and whatever the supplier answers. -/
theorem Run.snapshot_integrity (cached : setting.isCached = true)
    (h : Run setting .initial moves w) : SnapshotIntegrity setting moves w := by
  have effect : ∀ m ∈ moves, World.Effect setting m.before m.action m.after := by
    intro m hm
    obtain ⟨-, -, -, -, act, -⟩ := h.of_mem hm
    exact World.effect_of_act? act
  have fits : ∀ m ∈ moves, ∀ c ∈ m.before.clients, c.Fits setting := by
    intro m hm
    obtain ⟨earlier, -, -, run, -, -⟩ := h.of_mem hm
    exact run.fits
  have last : w.catalog.snapshot = (stored setting moves).getLast? := by
    rw [h.snapshot_eq]
    cases (stored setting moves).getLast? <;> rfl
  constructor
  case last => exact last
  case none_iff => rw [last, List.getLast?_eq_none_iff, stored_eq_nil_iff]
  case remains =>
    intro m hm
    exact (effect m hm).snapshot_ne_none
  case kept =>
    intro m hm he
    have he : m.before.ending? setting m.action = none := he
    rw [(effect m hm).snapshot, he]
    rfl
  case ended =>
    intro m hm e he
    have he : m.before.ending? setting m.action = some e := he
    have step := (effect m hm).snapshot
    rw [he, Option.bind_some, Ending.products?] at step
    refine ⟨World.outcome_of_ending? he, ?_⟩
    unfold Ending.count
    cases ho : e.outcome with
    | error failure =>
      rw [ho] at step
      exact step
    | ok products =>
      rw [ho] at step
      exact ⟨products, rfl, step, rfl⟩
  case refreshed =>
    intro m hm r hr
    exact (effect m hm).ending?_of_return cached (fits m hm) hr
  case read =>
    intro m hm r hr products ok
    exact (effect m hm).snapshot_of_return cached (fits m hm) hr ok
  case found =>
    intro m hm index purpose cycle e _ _ _ products ok
    rw [State.snapshot_conclude, ok]
    exact Option.some_ne_none products

/-- A supplier whose first answer is a failure. -/
def faltering : Catalog.Supplier :=
  .ofList [⟨.error (.status 503), 0⟩, ⟨.ok [], 1⟩]

/-- A reader and a refresh overlap: the first call fails and is repeated, and both store a list. -/
theorem Run.snapshot_integrity_overlap : ∃ moves w,
    Run (.cached ⟨faltering, .standard⟩) .initial moves w ∧
    (stored (.cached ⟨faltering, .standard⟩) moves).length = 2 ∧
    SnapshotIntegrity (.cached ⟨faltering, .standard⟩) moves w := by
  have evaluated : (World.initial.play? (.cached ⟨faltering, .standard⟩)
      [.enter .fetch, .enter .refresh, .wait 1, .client 0, .client 1, .wait 600, .client 0, .wait 1,
        .client 0]).any
      (fun result => (stored (.cached ⟨faltering, .standard⟩) result.1).length = 2) = true := by
    decide +kernel
  obtain ⟨moves, w, run, two⟩ := exists_of_play? evaluated
  exact ⟨moves, w, run, of_decide_eq_true two, snapshot_integrity rfl run⟩

end Service

end ProductSegments
