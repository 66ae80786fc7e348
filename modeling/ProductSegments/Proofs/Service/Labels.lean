import ProductSegments.Proofs.Service.Accounting

/-!
# The labels of the counters

Paths that are not known share one label, statuses are few, and so are the labels for numbers of
rules.  Only the method of a request goes into a label as it is.  So there is a bounded number of
counters for each method that is used, and whoever makes up methods makes up counters.

## Main definitions

* `Service.statuses` — the statuses of all responses.
* `Service.possible` — the counters that there can be if some methods are used.
* `Service.Labelled` — the counters after a run are possible ones, and no method is left out.

## Main results

* `Service.World.status_draft?` — a response has one of the statuses.
* `Service.length_possible` — how many counters that makes for each method.
* `Service.Run.labelled` — there are no other counters than the possible ones, and each method that
  is used has one.
* `Service.exists_counter_of_method`, `Service.counters_not_bounded` — any text can be a label, and
  so no list holds all counters.
-/

namespace ProductSegments

open Catalog (State Visit Outcome Ending)

namespace Service

variable {setting : Setting} {w next : World} {action : Action} {moves : List Move}

/-! ### Statuses -/

/-- The statuses of all responses. -/
def statuses : List Nat := [200, 400, 404, 405, 500]

theorem Problem.status_mem (p : Problem) : p.status ∈ statuses := by
  match p with
  | .invalidRequest _ => exact (by decide : (400 : Nat) ∈ statuses)
  | .evaluation _ | .catalog _ => exact (by decide : (500 : Nat) ∈ statuses)

theorem Order.status_response_mem (order : Order) (traced : Bool) (outcome : Outcome) :
    (order.response traced outcome).status ∈ statuses := by
  have ok : 200 ∈ statuses := by decide
  match order, outcome with
  | .evaluate _, .ok _ | .list, .ok _ | .refresh, .ok _ => exact ok
  | .evaluate _, .error failure => exact Problem.status_mem (.evaluation failure)
  | .list, .error failure | .refresh, .error failure => exact Problem.status_mem (.catalog failure)

theorem Immediate.status_mem {response : Web.Response} (h : Immediate response) :
    response.status ∈ statuses := by
  have ok : 200 ∈ statuses := by decide
  cases h with
  | unknown => exact (by decide : (404 : Nat) ∈ statuses)
  | unwelcome endpoint => exact (by decide : (405 : Nat) ∈ statuses)
  | refused details => exact Problem.status_mem (.invalidRequest details)
  | told type body => exact ok
  | preflight => exact ok
  | preflightAt endpoint => exact ok

/-- A response has one of the statuses. -/
theorem World.status_draft? {d : Draft} (h : w.draft? setting action = some d) :
    d.response.status ∈ statuses := by
  rcases w.draft?_cases h with ⟨-, planned⟩ | ⟨client, order, outcome, -, response⟩
  · exact (immediate_of_setting planned).status_mem
  · rw [response]
    exact order.status_response_mem _ _

/-! ### Paths -/

/-- What stands for the paths of requests. -/
def paths (routes : Routes) : List String := "unmatched" :: routes.map Prod.fst

theorem Draft.route_mem (d : Draft) : d.route setting ∈ paths setting.routes := by
  unfold route
  cases h : route? setting.routes d.request with
  | none => exact List.mem_cons_self
  | some route =>
    exact List.mem_cons_of_mem _ (List.mem_map_of_mem (List.mem_of_find?_eq_some h))

/-! ### Rules -/

/-- The labels for numbers of rules. -/
def buckets : List String := ["0", "1", "2-4", "5+"]

theorem ruleBucket_mem (rules : Nat) : Metrics.ruleBucket rules ∈ buckets := by
  unfold Metrics.ruleBucket
  split
  · decide
  · split
    · decide
    · split <;> decide

/-! ### All counters -/

/-- The counters that there can be if some methods are used. -/
def possible (routes : Routes) (methods : List String) : List Series :=
  (methods.flatMap fun method => (paths routes).flatMap fun path =>
    statuses.map (Metrics.requestCounter method path)) ++
  buckets.map Metrics.segmentCounter ++ [true, false].map Metrics.refreshCounter

section Possible

variable {routes : Routes} {methods : List String}

theorem requestCounter_mem {method path : String} {status : Nat} (hm : method ∈ methods)
    (hp : path ∈ paths routes) (hs : status ∈ statuses) :
    Metrics.requestCounter method path status ∈ possible routes methods := by
  refine List.mem_append_left _ (List.mem_append_left _ ?_)
  exact List.mem_flatMap.mpr ⟨method, hm, List.mem_flatMap.mpr ⟨path, hp, List.mem_map_of_mem hs⟩⟩

theorem segmentCounter_mem (rules : Nat) :
    Metrics.segmentCounter (Metrics.ruleBucket rules) ∈ possible routes methods :=
  List.mem_append_left _ (List.mem_append_right _ (List.mem_map_of_mem (ruleBucket_mem rules)))

theorem refreshCounter_mem (succeeded : Bool) :
    Metrics.refreshCounter succeeded ∈ possible routes methods := by
  refine List.mem_append_right _ (List.mem_map_of_mem ?_)
  cases succeeded <;> decide

end Possible

/-- For the routes of the service there are twenty-five of them for each method, and six others. -/
theorem length_possible (methods : List String) :
    (possible routes methods).length = 25 * methods.length + 6 := by
  induction methods with
  | nil => rfl
  | cons method methods ih =>
    have each : ((paths routes).flatMap fun path =>
        statuses.map (Metrics.requestCounter method path)).length = 25 := rfl
    simp only [possible, List.flatMap_cons, List.length_append, List.length_cons, each] at ih ⊢
    omega

/-! ### Methods -/

theorem World.Arrival.eq_of_purpose? {arrival : World.Arrival} {exchange : Exchange}
    (h : arrival.purpose? setting w = some (.serve exchange)) :
    arrival = .request exchange.request := by
  match arrival with
  | .fetch => cases h
  | .refresh => cases h
  | .request r =>
    simp only [purpose?] at h
    split at h
    · cases h
    · obtain rfl := Purpose.serve.inj (Option.some.inj h)
      rfl

/-- The method of a request that comes in. -/
def Action.method? : Action → Option String
  | .enter (.request r) => some r.method
  | _ => none

/-- The methods that are used in a run. -/
def used (moves : List Move) : List String := moves.filterMap (·.action.method?)

theorem mem_used {m : Move} (hm : m ∈ moves) {r : Web.Request}
    (enters : m.action = .enter (.request r)) : r.method ∈ used moves :=
  List.mem_filterMap.mpr ⟨m, hm, congrArg Action.method? enters⟩

/-- A response goes out to a request that came in. -/
theorem Run.method_mem (h : Run setting .initial moves w) {m : Move} (hm : m ∈ moves) {d : Draft}
    (hd : m.before.draft? setting m.action = some d) : d.request.method ∈ used moves := by
  rcases m.before.draft?_cases hd with ⟨came, -⟩ | ⟨client, order, outcome, returns, -⟩
  · exact mem_used hm came
  · have came : ∀ m ∈ moves, ∀ arrival purpose, m.action = .enter arrival →
        arrival.purpose? setting m.before = some purpose →
        ∀ exchange, purpose = .serve exchange → exchange.request.method ∈ used moves := by
      rintro m hm arrival purpose enters intent exchange rfl
      rw [World.Arrival.eq_of_purpose? intent] at enters
      exact mem_used hm enters
    exact h.forall_returns came m hm _ returns _ rfl

/-! ### The counters of a run -/

/-- The labels of the counters after a run in which no methods but some given ones are used. -/
structure Labelled (setting : Setting) (methods : List String) (moves : List Move) (w : World) :
    Prop where
  /-- There are no counters but the possible ones. -/
  bounded : ∀ series ∈ w.catalog.metrics.counted, series ∈ possible setting.routes methods
  /-- Each response has one with the method of its request, where responses are counted. -/
  own : setting.isLayered = true → ∀ m ∈ moves, ∀ request response,
    m.served? = some (request, response) → ∃ path ∈ paths setting.routes,
      Metrics.requestCounter request.method path response.status ∈ w.catalog.metrics.counted

/-- **All labels but the method come from a few.**  A counter is one of the possible ones for the
methods that are used, and each method that is used has a counter of its own. -/
theorem Run.labelled (h : Run setting .initial moves w) {methods : List String}
    (known : used moves ⊆ methods) : Labelled setting methods moves w where
  bounded := by
    intro series counted
    rw [h.metrics_eq, Metrics.mem_counted_foldl] at counted
    rcases counted with none | ⟨e, he, rfl⟩
    · cases none
    · obtain ⟨m, hm, he⟩ := List.mem_flatMap.mp he
      rcases World.mem_entries.mp he with ⟨ending, -, rfl⟩ | ⟨segment, -, rfl⟩ | ⟨d, hd, -, rfl⟩
      · exact refreshCounter_mem _
      · exact segmentCounter_mem _
      · exact requestCounter_mem (known (h.method_mem hm hd)) d.route_mem
          (m.before.status_draft? hd)
  own := by
    intro layered m hm request response served
    rw [h.served?_eq hm] at served
    obtain ⟨d, hd, eq⟩ := Option.map_eq_some_iff.mp served
    obtain ⟨rfl, rfl⟩ := Prod.mk.inj eq
    have entered : d.entry setting ∈ m.before.entries setting m.action :=
      World.mem_entries.mpr (.inr (.inr ⟨d, hd, layered, rfl⟩))
    refine ⟨d.route setting, d.route_mem, ?_⟩
    rw [Draft.status_sent, h.metrics_eq, Metrics.mem_counted_foldl]
    exact .inr ⟨d.entry setting, List.mem_flatMap.mpr ⟨m, hm, entered⟩, rfl⟩

/-- A segment, and something that nobody knows how to do. -/
theorem Run.labelled_brew : ∃ moves w, Run counting .initial moves w ∧
    used moves ⊆ ["POST", "BREW"] ∧
    Metrics.requestCounter "BREW" "/health" 405 ∈ w.catalog.metrics.counted ∧
    Labelled counting ["POST", "BREW"] moves w := by
  have played : (World.initial.play? counting [.enter (.request onSale), .client 0,
      .enter (.request ⟨"BREW", "/health", [], []⟩)]).any (fun result =>
        used result.1 = ["POST", "BREW"] ∧
        Metrics.requestCounter "BREW" "/health" 405 ∈ result.2.catalog.metrics.counted) = true := by
    decide +kernel
  obtain ⟨moves, w, run, seen⟩ := exists_of_play? played
  obtain ⟨methods, brewed⟩ := of_decide_eq_true seen
  have known : used moves ⊆ ["POST", "BREW"] := fun method hm => methods ▸ hm
  exact ⟨moves, w, run, known, brewed, run.labelled known⟩

/-! ### Methods that are made up -/

/-- The method that a counter is labelled with. -/
def methodLabel (s : Series) : String := (s.labels.lookup "method").getD ""

@[simp] theorem methodLabel_requestCounter (method path : String) (status : Nat) :
    methodLabel (Metrics.requestCounter method path status) = method := rfl

/-- Any text can be a label: who sends it as a method is told that nothing is there, and has a
counter. -/
theorem exists_counter_of_method (method : String) : ∃ moves w, Run counting .initial moves w ∧
    Metrics.requestCounter method "unmatched" 404 ∈ w.catalog.metrics.counted := by
  let r : Web.Request := ⟨method, "/", [], []⟩
  have nowhere : route? routes r = none := by
    have path : r.path = (⟨"", "/", [], []⟩ : Web.Request).path := rfl
    have root : (⟨"", "/", [], []⟩ : Web.Request).path = "/" := by decide +kernel
    rw [route?, path, root]
    decide
  have plain : counting.cors? = none := rfl
  have usual : counting.routes = routes := rfl
  have planned : counting.plan (r.id (counting.freshId World.initial.ids)) r = .inl (.blank 404) := by
    rw [Setting.plan, guardedPlan, plain, usual, Option.isSome_none, Bool.false_and, if_neg Bool.false_ne_true,
      plan, nowhere]
  have act : World.initial.act? counting (.enter (.request r)) =
      some (World.initial.enter counting (.request r)) := rfl
  have run := Run.single act
  have drafted := World.draft?_of_response planned
  have label : Draft.route counting ⟨r, r.id (counting.freshId World.initial.ids), .blank 404⟩ =
      "unmatched" := by
    rw [Draft.route, usual, nowhere]
    rfl
  refine ⟨_, _, run, ?_⟩
  rw [World.metrics_of_act? act, Metrics.mem_counted_foldl]
  refine .inr ⟨_, World.mem_entries.mpr (.inr (.inr ⟨_, drafted, rfl, rfl⟩)), ?_⟩
  rw [Draft.entry, label]
  rfl

/-- **The counters are not bounded**: no list holds those of all runs. -/
theorem counters_not_bounded : ¬∃ series : List Series, ∀ moves w, Run counting .initial moves w →
    ∀ s ∈ w.catalog.metrics.counted, s ∈ series := by
  rintro ⟨series, all⟩
  -- a method that is longer than all that are there
  obtain ⟨longest, long⟩ : ∃ longest, ∀ s ∈ series, (methodLabel s).length ≤ longest := by
    let length (s : Series) : Nat := (methodLabel s).length
    refine ⟨(series.map length).max?.getD 0, fun s hs => ?_⟩
    have le := List.le_max?_get_of_mem (List.mem_map_of_mem (f := length) hs)
    rwa [Option.get_eq_getD] at le
  obtain ⟨moves, w, run, counted⟩ :=
    exists_counter_of_method (String.ofList (List.replicate (longest + 1) 'A'))
  have short := long _ (all moves w run _ counted)
  rw [methodLabel_requestCounter, String.length_ofList, List.length_replicate] at short
  omega

end Service

end ProductSegments
