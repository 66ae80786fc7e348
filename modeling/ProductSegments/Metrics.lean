/-!
# Metrics

What the service counts: its answers, the segments it works out and the refreshes of its catalog.

## Main definitions

* `Series` — a metric with its labels.
* `Metrics` — the counters, gauges and recorded values so far.
* `Metrics.served`, `Metrics.evaluated`, `Metrics.refreshed` — what is recorded, and when.
-/

namespace ProductSegments

/-- A metric with its labels, in the order of their names. -/
structure Series where
  name : String
  labels : List (String × String)
  deriving DecidableEq, Repr

/-- What has been recorded. -/
structure Metrics where
  /-- How often something happened. -/
  counters : List (Series × Nat)
  /-- How much there is of something. -/
  gauges : List (Series × Nat)
  /-- The amounts recorded of something, in order. -/
  amounts : List (Series × List Nat)
  /-- How many durations have been recorded of something; how long they were depends on the
  machine. -/
  durations : List (Series × Nat)
  deriving DecidableEq, Repr

namespace Metrics

/-- Nothing has been recorded. -/
def empty : Metrics := ⟨[], [], [], []⟩

/-- The entry of a series changed by `f`, which gets `none` for a series without an entry. -/
def update {α : Type} (series : Series) (f : Option α → α) : List (Series × α) → List (Series × α)
  | [] => [(series, f none)]
  | (s, a) :: others => if s = series then (s, f (some a)) :: others else (s, a) :: update series f others

/-- Count one more. -/
def count (m : Metrics) (series : Series) : Metrics :=
  { m with counters := update series (fun n => n.getD 0 + 1) m.counters }

/-- Record a duration. -/
def time (m : Metrics) (series : Series) : Metrics :=
  { m with durations := update series (fun n => n.getD 0 + 1) m.durations }

/-- Record an amount. -/
def amount (m : Metrics) (series : Series) (n : Nat) : Metrics :=
  { m with amounts := update series (fun ns => ns.getD [] ++ [n]) m.amounts }

/-- Record how much there is. -/
def gauge (m : Metrics) (series : Series) (n : Nat) : Metrics :=
  { m with gauges := update series (fun _ => n) m.gauges }

/-- An answer with a status has been sent to a request by some method for a route. -/
def served (m : Metrics) (method route : String) (status : Nat) : Metrics :=
  let labels := [("method", method), ("path", route), ("status", toString status)]
  (m.count ⟨"http_requests_total", labels⟩).time ⟨"http_request_duration_seconds", labels⟩

/-- The label for a number of rules. -/
def ruleBucket (rules : Nat) : String :=
  if rules = 0 then "0" else if rules = 1 then "1" else if rules ≤ 4 then "2-4" else "5+"

/-- A segment of some rules has been worked out and has some products. -/
def evaluated (m : Metrics) (rules matched : Nat) : Metrics :=
  ((m.count ⟨"segment_evaluations_total", [("rules", ruleBucket rules)]⟩).time
    ⟨"segment_evaluation_duration_seconds", []⟩).amount ⟨"segment_matched_products", []⟩ matched

/-- A refresh has ended, with some number of products if it succeeded. -/
def refreshed (m : Metrics) (products? : Option Nat) : Metrics :=
  match products? with
  | some n =>
    (m.count ⟨"catalog_refreshes_total", [("status", "success")]⟩).gauge ⟨"catalog_products", []⟩ n
  | none => m.count ⟨"catalog_refreshes_total", [("status", "failure")]⟩

/-- The service has started. -/
def started (m : Metrics) (service : String) : Metrics :=
  m.count ⟨"service_starts_total", [("service", service)]⟩

end Metrics

end ProductSegments
