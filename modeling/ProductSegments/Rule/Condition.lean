import ProductSegments.Rule.Line

/-!
# Conditions

Whether a product satisfies a rule.  Numbers are compared as numbers if the field holds one and the
value spells one; everything else is compared as text, and text has no order.

## Main definitions

* `Comparison` — the two kinds of comparison; `Rule.comparison` is the kind that a rule makes.
* `Operator.onNumbers?`, `Operator.onTexts?` — what an operator means, if it means anything.
* `Rule.holds` — the product satisfies the rule.
* `Rule.check` — the operator means something for the rule's kind of comparison.
-/

namespace ProductSegments

/-- The kinds of comparison. -/
inductive Comparison where
  | numeric
  | textual
  deriving DecidableEq, Repr

namespace Comparison

/-- The name of a kind. -/
def name : Comparison → String
  | numeric => "numeric"
  | textual => "text"

end Comparison

namespace Operator

/-- What an operator says about the value of a product and the number of a rule. -/
def onNumbers? : Operator → Option (Binary64 → Binary64 → Bool)
  | eq => some fun a b => a.compare? b = some .eq
  | neq => some fun a b => a.compare? b ≠ some .eq
  | gt => some fun a b => a.compare? b = some .gt
  | gte => some fun a b => (a.compare? b).any (·.isGE)
  | lt => some fun a b => a.compare? b = some .lt
  | lte => some fun a b => (a.compare? b).any (·.isLE)
  | other _ => none

/-- What an operator says about two texts. -/
def onTexts? : Operator → Option (String → String → Bool)
  | eq => some fun a b => a = b
  | neq => some fun a b => a ≠ b
  | _ => none

end Operator

/-- The operator means something for a kind of comparison. -/
def Comparison.supports : Comparison → Operator → Bool
  | numeric, op => op.onNumbers?.isSome
  | textual, op => op.onTexts?.isSome

namespace Rule

/-- The kind of comparison that a rule makes. -/
def comparison (r : Rule) : Comparison :=
  if r.isNumeric && r.field.isNumeric then .numeric else .textual

/-- The product satisfies the rule.  A number that the product lacks satisfies no comparison. -/
def holds (r : Rule) (p : Product) : Bool :=
  r.isValid && match p.value? r.field with
  | none => false
  | some value => match r.comparison with
    | .numeric => match r.operator.onNumbers?, value.number? with
      | some test, some actual => test actual r.number
      | _, _ => false
    | .textual => match r.operator.onTexts? with
      | some test => test value.asText r.value
      | none => false

/-- The fault of a rule whose operator means nothing for its kind of comparison. -/
def check (r : Rule) : Except Fault Unit :=
  if r.comparison.supports r.operator then .ok ()
  else if r.comparison = .textual ∧ r.operator.isOrdering then
    .error (.orderingOnText r.operator.symbol r.field.name r.value)
  else .error (.unsupportedOperator r.operator.symbol r.comparison.name)

/-- The rule on a line that some product can satisfy. -/
def diagnose (line : String) : Except Fault Rule := do
  let rule ← ofLine? line
  rule.check
  return rule

end Rule

end ProductSegments
