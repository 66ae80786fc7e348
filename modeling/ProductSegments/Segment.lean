import ProductSegments.Rule.Condition

/-!
# Segments

A segment is the products of a catalog that satisfy all rules of a list, in the order of the
catalog.

## Main definitions

* `Segment.select` — the products of a segment.
* `Segment.select?` — the same, or the fault of the first rule that no product can satisfy.
* `Segment.report` — the products with their counts and, on request, a line about each rule.
-/

namespace ProductSegments.Segment

/-- The product satisfies all rules. -/
def satisfies (rules : List Rule) (p : Product) : Bool := rules.all (·.holds p)

/-- What is known about a segment. -/
structure Report where
  products : List Product
  /-- How many products the segment has. -/
  matched : Nat
  /-- How many products the catalog has. -/
  total : Nat
  /-- A line about each rule. -/
  trace : List String
  deriving DecidableEq

/-- The line about one rule: how many products satisfy it alone, or why none can. -/
def traceLine (products : List Product) (index : Nat) (line : String) : String :=
  let trimmed := String.ofList (Text.trim line.toList)
  match Rule.diagnose trimmed with
  | .ok rule =>
    let text := rule.text
    let kind := rule.comparison.name
    let hits := products.countP rule.holds
    let total := products.length
    s!"rules[{index}]: {text} => VALID ({kind}), 单独命中 {hits}/{total}"
  | .error fault =>
    let mark := if (Rule.ofLine line).isValid then "valid" else "invalid"
    let message := fault.message
    s!"rules[{index}]: '{trimmed}' => NEVER_MATCHES ({mark}): {message}"

/-- The segment of a list of rule lines.  There is nothing to say about the rules of an empty
catalog. -/
def report (traced : Bool) (products : List Product) (lines : List String) : Report :=
  if products.isEmpty then ⟨[], 0, 0, []⟩
  else if lines.isEmpty then ⟨products, products.length, products.length, []⟩
  else
    let chosen := products.filter (satisfies (lines.map Rule.ofLine))
    let trace := if traced then lines.mapIdx (traceLine products) else []
    ⟨chosen, chosen.length, products.length, trace⟩

/-- The products of a segment, or the fault of the first rule that no product can satisfy.  The
rules of an empty catalog are not looked at. -/
def select? (products : List Product) (lines : List String) : Except Rule.Fault (List Product) := do
  if products.isEmpty then return []
  lines.forM fun line => discard (Rule.diagnose line)
  return (report false products lines).products

/-- The products of a segment; none if a rule has a fault. -/
def select (products : List Product) (lines : List String) : List Product :=
  match select? products lines with
  | .ok chosen => chosen
  | .error _ => []

end ProductSegments.Segment
