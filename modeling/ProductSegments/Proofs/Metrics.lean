import ProductSegments.Metrics

/-!
# Which series change

Something is recorded of a few series at a time, and all others stay as they are.  Whatever is
recorded makes one counter greater by one, so the counters say how often each thing has been
recorded, and nothing else.

## Main definitions

* `Metrics.SameAt` — two records agree about a series.
* `Series.isOfRequests` — the series counts answers to requests.
* `Metrics.Entry`, `Metrics.enter` — what is recorded at once, and recording it.
* `Metrics.Entry.counter` — the counter of an entry.
* `Metrics.value`, `Metrics.total` — a counter, and the sum of several.

## Main results

* `Metrics.lookup_update_of_ne` — recording something of one series changes no other one.
* `Metrics.sameAt_served` — an answer changes no series but those of requests.
* `Metrics.value_foldl`, `Metrics.total_foldl` — after some entries, the counters have counted them.
* `Metrics.mem_counted_foldl` — there are the counters of all entries, and no others.
* `Metrics.catalogSize?_enter` — the number of products is that of the last refresh that succeeded.
-/

namespace ProductSegments

/-- The series counts answers to requests. -/
def Series.isOfRequests (s : Series) : Bool :=
  s.name = "http_requests_total" || s.name = "http_request_duration_seconds"

namespace Metrics

theorem lookup_update_of_ne {α : Type} {series other : Series} (h : other ≠ series)
    (f : Option α → α) (entries : List (Series × α)) :
    (update series f entries).lookup other = entries.lookup other := by
  have no : (other == series) = false := beq_false_of_ne h
  induction entries with
  | nil => rw [update, List.lookup_cons, no]
  | cons entry entries ih =>
    obtain ⟨s, a⟩ := entry
    rw [update]
    by_cases same : s = series
    · rw [if_pos same, List.lookup_cons, List.lookup_cons, same, no]
    · rw [if_neg same, List.lookup_cons, List.lookup_cons, ih]

/-- Two records agree about a series. -/
structure SameAt (m m' : Metrics) (series : Series) : Prop where
  counters : m'.counters.lookup series = m.counters.lookup series
  gauges : m'.gauges.lookup series = m.gauges.lookup series
  amounts : m'.amounts.lookup series = m.amounts.lookup series
  durations : m'.durations.lookup series = m.durations.lookup series

theorem sameAt_refl (m : Metrics) (series : Series) : m.SameAt m series := ⟨rfl, rfl, rfl, rfl⟩

/-- An answer to a request changes no series but those of requests. -/
theorem sameAt_served (m : Metrics) (method route : String) (status : Nat) {series : Series}
    (h : series.isOfRequests = false) : m.SameAt (m.served method route status) series := by
  have other : ∀ name labels, (⟨name, labels⟩ : Series).isOfRequests = true →
      series ≠ ⟨name, labels⟩ := by
    rintro name labels ofRequests rfl
    exact Bool.false_ne_true (h.symm.trans ofRequests)
  refine ⟨?_, rfl, rfl, ?_⟩
  · exact lookup_update_of_ne (other "http_requests_total" _ rfl) _ _
  · exact lookup_update_of_ne (other "http_request_duration_seconds" _ rfl) _ _

/-! ### Entries -/

/-- What is recorded at once. -/
inductive Entry where
  /-- A request by some method for a route has been answered with a status. -/
  | served (method route : String) (status : Nat)
  /-- A segment of some rules has been worked out and has some products. -/
  | evaluated (rules matched : Nat)
  /-- A refresh has ended, with some number of products if it succeeded. -/
  | refreshed (products? : Option Nat)

/-- Record an entry. -/
def enter (m : Metrics) : Entry → Metrics
  | .served method route status => m.served method route status
  | .evaluated rules matched => m.evaluated rules matched
  | .refreshed products? => m.refreshed products?

/-- The counter of requests by some method for a route that were answered with a status. -/
def requestCounter (method route : String) (status : Nat) : Series :=
  ⟨"http_requests_total", [("method", method), ("path", route), ("status", toString status)]⟩

/-- The counter of segments with as many rules as a label says. -/
def segmentCounter (bucket : String) : Series :=
  ⟨"segment_evaluations_total", [("rules", bucket)]⟩

/-- The counter of refreshes that succeeded, or of those that failed. -/
def refreshCounter (succeeded : Bool) : Series :=
  ⟨"catalog_refreshes_total", [("status", if succeeded then "success" else "failure")]⟩

/-- The counter of an entry. -/
def Entry.counter : Entry → Series
  | served method route status => requestCounter method route status
  | evaluated rules _ => segmentCounter (ruleBucket rules)
  | refreshed products? => refreshCounter products?.isSome

/-- An entry makes its counter greater by one. -/
theorem counters_enter (m : Metrics) (e : Entry) :
    (m.enter e).counters = update e.counter (fun n => n.getD 0 + 1) m.counters := by
  match e with
  | .served method route status => rfl
  | .evaluated rules matched => rfl
  | .refreshed none => rfl
  | .refreshed (some n) => rfl

/-! ### What the counters say -/

theorem lookup_update_self {α : Type} (series : Series) (f : Option α → α)
    (entries : List (Series × α)) :
    (update series f entries).lookup series = some (f (entries.lookup series)) := by
  induction entries with
  | nil => rw [update, List.lookup_cons, beq_self_eq_true, List.lookup_nil]
  | cons entry entries ih =>
    obtain ⟨s, a⟩ := entry
    rw [update]
    by_cases same : s = series
    · rw [if_pos same, List.lookup_cons, List.lookup_cons, same, beq_self_eq_true]
    · rw [if_neg same, List.lookup_cons, List.lookup_cons, beq_false_of_ne (Ne.symm same), ih]

/-- How often something has been counted. -/
def value (m : Metrics) (series : Series) : Nat := (m.counters.lookup series).getD 0

/-- The sum of the counters that `p` holds of. -/
def sum (p : Series → Bool) (counters : List (Series × Nat)) : Nat :=
  (counters.filter fun entry => p entry.1).foldr (fun entry rest => entry.2 + rest) 0

/-- How often things have been counted altogether by the counters that `p` holds of. -/
def total (m : Metrics) (p : Series → Bool) : Nat := sum p m.counters

theorem value_enter (m : Metrics) (e : Entry) (series : Series) :
    (m.enter e).value series = m.value series + if e.counter = series then 1 else 0 := by
  rw [value, value, counters_enter]
  by_cases same : e.counter = series
  · rw [if_pos same, ← same, lookup_update_self, Option.getD_some]
  · rw [if_neg same, lookup_update_of_ne (Ne.symm same), Nat.add_zero]

theorem sum_cons (p : Series → Bool) (entry : Series × Nat) (counters : List (Series × Nat)) :
    sum p (entry :: counters) = (if p entry.1 then entry.2 else 0) + sum p counters := by
  unfold sum
  rw [List.filter_cons]
  cases p entry.1 with
  | false => exact (Nat.zero_add _).symm
  | true => rfl

/-- One more on a counter is one more in the sums that it is part of. -/
theorem sum_update (p : Series → Bool) (series : Series) (counters : List (Series × Nat)) :
    sum p (update series (fun n => n.getD 0 + 1) counters) =
      sum p counters + if p series then 1 else 0 := by
  induction counters with
  | nil => exact (sum_cons p _ []).trans (Nat.add_comm ..)
  | cons entry counters ih =>
    obtain ⟨s, n⟩ := entry
    rw [update]
    by_cases same : s = series
    · subst same
      rw [if_pos rfl, sum_cons, sum_cons, Option.getD_some]
      cases p s <;> simp only [if_true, Bool.false_eq_true, if_false] <;> omega
    · rw [if_neg same, sum_cons, sum_cons, ih, Nat.add_assoc]

theorem total_enter (m : Metrics) (e : Entry) (p : Series → Bool) :
    (m.enter e).total p = m.total p + if p e.counter then 1 else 0 := by
  rw [total, total, counters_enter, sum_update]

/-- **A counter has counted the entries of its own.** -/
theorem value_foldl (m : Metrics) (entries : List Entry) (series : Series) :
    (entries.foldl enter m).value series =
      m.value series + entries.countP (·.counter = series) := by
  induction entries generalizing m with
  | nil => rfl
  | cons e entries ih =>
    rw [List.foldl_cons, ih, value_enter, List.countP_cons]
    simp only [decide_eq_true_eq]
    omega

/-- **Several counters have counted the entries of all of them.** -/
theorem total_foldl (m : Metrics) (entries : List Entry) (p : Series → Bool) :
    (entries.foldl enter m).total p = m.total p + entries.countP (p ·.counter) := by
  induction entries generalizing m with
  | nil => rfl
  | cons e entries ih =>
    rw [List.foldl_cons, ih, total_enter, List.countP_cons]
    omega

theorem mem_update_iff {α : Type} {series s : Series} {f : Option α → α}
    {entries : List (Series × α)} : s ∈ (update series f entries).map Prod.fst ↔
      s = series ∨ s ∈ entries.map Prod.fst := by
  induction entries with
  | nil => exact List.mem_singleton.trans (or_iff_left List.not_mem_nil).symm
  | cons entry entries ih =>
    obtain ⟨s', a⟩ := entry
    rw [update]
    by_cases same : s' = series
    · rw [if_pos same, List.map_cons, List.map_cons, List.mem_cons, same, ← or_assoc, or_self]
    · rw [if_neg same, List.map_cons, List.map_cons, List.mem_cons, List.mem_cons, ih]
      exact or_left_comm

/-- The counters that have counted anything. -/
def counted (m : Metrics) : List Series := m.counters.map Prod.fst

/-- **There are the counters of all entries, and no others** but those that were there before. -/
theorem mem_counted_foldl {m : Metrics} {entries : List Entry} {series : Series} :
    series ∈ (entries.foldl enter m).counted ↔
      series ∈ m.counted ∨ ∃ e ∈ entries, e.counter = series := by
  induction entries generalizing m with
  | nil => simp only [List.foldl_nil, List.not_mem_nil, false_and, exists_false, or_false]
  | cons e entries ih =>
    have first : series ∈ (m.enter e).counted ↔ series = e.counter ∨ series ∈ m.counted := by
      rw [counted, counters_enter]
      exact mem_update_iff
    simp only [List.foldl_cons, ih, first, List.mem_cons, exists_eq_or_imp]
    rw [eq_comm, or_assoc]
    exact or_left_comm

/-! ### The number of products -/

/-- The number of products that is shown, if there is one. -/
def catalogSize? (m : Metrics) : Option Nat := m.gauges.lookup ⟨"catalog_products", []⟩

/-- The number of products that an entry tells. -/
def Entry.size? : Entry → Option Nat
  | served .. | evaluated .. => none
  | refreshed products? => products?

theorem catalogSize?_enter (m : Metrics) (e : Entry) :
    (m.enter e).catalogSize? = (e.size? <|> m.catalogSize?) := by
  match e with
  | .served method route status => rfl
  | .evaluated rules matched => rfl
  | .refreshed none => rfl
  | .refreshed (some n) => exact lookup_update_self _ _ _

/-- Entries that tell no number of products leave it as it is. -/
theorem catalogSize?_foldl {m : Metrics} {entries : List Entry}
    (h : ∀ e ∈ entries, e.size? = none) : (entries.foldl enter m).catalogSize? = m.catalogSize? := by
  induction entries generalizing m with
  | nil => rfl
  | cons e entries ih =>
    rw [List.foldl_cons, ih fun e he => h e (List.mem_cons_of_mem _ he), catalogSize?_enter,
      h e List.mem_cons_self]
    rfl

end Metrics

end ProductSegments
