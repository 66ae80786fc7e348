import ProductSegments.Rule.Basic

/-!
# Rule lines

A line is read by its first three tokens, whatever follows them.  The lenient reading never fails:
a line that is no rule becomes one that no product satisfies.  The strict reading says what is wrong.

## Main definitions

* `Rule.Fault`, `Rule.Fault.message` — why a rule can match no product.
* `Rule.ofLine` — the lenient reading.
* `Rule.ofLine?` — the strict reading.
-/

namespace ProductSegments.Rule

/-- Why a rule can match no product. -/
inductive Fault where
  /-- The line has no token. -/
  | empty
  /-- The line has only `found` tokens. -/
  | missingToken (line : String) (found : Nat)
  /-- The first token is no allowed field. -/
  | unknownField (name : String)
  /-- The operator is none for this kind of comparison. -/
  | unsupportedOperator (operator kind : String)
  /-- The operator asks for an order, but the values are compared as text. -/
  | orderingOnText (operator field value : String)
  deriving DecidableEq, Repr

/-- The wording of a fault. -/
def Fault.message : Fault → String
  | empty => "规则为空"
  | missingToken line found =>
    s!"规则格式错误: '{line}' 需要 `field operator value` 三段，实际 {found} 段"
  | unknownField name => s!"不支持的字段: {name}"
  | unsupportedOperator operator kind => s!"不支持的操作符: {operator} 不适用于 {kind} 比较"
  | orderingOnText operator field value =>
    s!"有序比较 {operator} 只适用于数值: {field} 的值 '{value}' 按文本比较"

/-- The rule of a field, an operator and a value. -/
def ofTokens (field operator value : String) : Rule :=
  match Field.ofName field with
  | .unknown => .invalid (.ofToken operator) value
  | f =>
    let number := Literal.value value.toList
    ⟨f, .ofToken operator, value, true, f.isNumeric && !number.isNaN, number⟩

/-- The rule on a line.  What is missing on a short line is empty. -/
def ofLine (line : String) : Rule :=
  match Text.words line with
  | field :: operator :: value :: _ => ofTokens field operator value
  | [_, operator] => .invalid (.ofToken operator) ""
  | _ => .invalid (.ofToken "") ""

/-- The rule on a line, if it has three tokens and an allowed field. -/
def ofLine? (line : String) : Except Fault Rule :=
  match Text.words line with
  | [] => .error .empty
  | field :: _ :: _ :: _ =>
    if Field.ofName field = .unknown then .error (.unknownField field) else .ok (ofLine line)
  | short => .error (.missingToken (String.ofList (Text.trim line.toList)) short.length)

end ProductSegments.Rule
