import ProductSegments.Json.Record
import ProductSegments.Json.Writer
import ProductSegments.Number.Literal
import ProductSegments.Product.Basic

/-!
# Rules

A rule compares one field of a product with a value.  It is written on one line as a field, an
operator and a value with blanks between them.

## Main definitions

* `Operator` — the operators; any other token is kept as it is written.
* `Rule` — a rule that has been read.
* `Rule.text` — its canonical line.
-/

namespace ProductSegments

/-- The comparison that a rule makes. -/
inductive Operator where
  | eq
  | neq
  | gt
  | gte
  | lt
  | lte
  /-- A token that is no operator. -/
  | other (token : String)
  deriving DecidableEq, Repr

namespace Operator

/-- The operator that a token stands for. -/
def ofToken (token : String) : Operator :=
  if token = "=" then .eq
  else if token = "!=" then .neq
  else if token = ">" then .gt
  else if token = ">=" then .gte
  else if token = "<" then .lt
  else if token = "<=" then .lte
  else .other token

/-- The token of an operator. -/
def symbol : Operator → String
  | eq => "="
  | neq => "!="
  | gt => ">"
  | gte => ">="
  | lt => "<"
  | lte => "<="
  | other token => token

/-- The operator asks for an order, not only for equality. -/
def isOrdering : Operator → Bool
  | gt | gte | lt | lte => true
  | _ => false

@[simp] theorem symbol_ofToken (token : String) : (ofToken token).symbol = token := by
  unfold ofToken
  repeat' split
  all_goals simp_all [symbol]

end Operator

/-- A rule that has been read. -/
structure Rule where
  field : Field
  operator : Operator
  /-- The value as it is written. -/
  value : String
  /-- The rule has three tokens and an allowed field. -/
  isValid : Bool
  /-- The field holds a number and the value spells one. -/
  isNumeric : Bool
  /-- The number that the value spells. -/
  number : Binary64
  deriving DecidableEq

namespace Rule

/-- A rule that no product satisfies. -/
def invalid (operator : Operator) (value : String) : Rule :=
  ⟨.unknown, operator, value, false, false, .nan⟩

/-- The canonical line of a rule. -/
def text (r : Rule) : String := r.field.name ++ " " ++ r.operator.symbol ++ " " ++ r.value

end Rule

/-! ### JSON -/

/-- The JSON name of an operator that is one. -/
def Operator.documentName? : Operator → Option String
  | eq => some "eq"
  | neq => some "neq"
  | gt => some "gt"
  | gte => some "gte"
  | lt => some "lt"
  | lte => some "lte"
  | other _ => none

/-- The operators, the tokens that are none apart. -/
def Operator.all : List Operator := [.eq, .neq, .gt, .gte, .lt, .lte]

/-- An operator as JSON: its name, or the token that is none under the name `other`. -/
def Operator.chars : Operator → List Char
  | other token => Json.Writer.object [("other", Json.Writer.string token)]
  | op => Json.Writer.string (op.documentName?.getD "")

/-- A field as JSON. -/
def Field.chars (f : Field) : List Char := Json.Writer.string f.name

/-- A rule as JSON. -/
def Rule.chars (r : Rule) : List Char :=
  Json.Writer.object [
    ("field", r.field.chars),
    ("operator", r.operator.chars),
    ("raw_value", Json.Writer.string r.value),
    ("valid", Json.Writer.flag r.isValid),
    ("is_numeric", Json.Writer.flag r.isNumeric),
    ("numeric_value", Json.Writer.number r.number)]

namespace Json

/-- What an alternative carries: what its reader reads, or `null` if it carries nothing. -/
def payload? {α : Type} (plain : List Char → Option α) (carrying : List Char → Option (Reader α))
    (name : List Char) : Option (Reader α) :=
  carrying name <|> (plain name).map fun value => refine (fun _ => some value) null

/-- A choice between alternatives: the name of one that carries nothing, or an object whose only
member is named for an alternative and holds what it carries, `null` if that is nothing. -/
def choice {α : Type} (plain : List Char → Option α) (carrying : List Char → Option (Reader α)) :
    Reader α := fun s =>
  match token s with
  | .error e => .error e
  | .ok ⟨b, inside, h₁⟩ =>
    if b = byte '"' then refine plain string s
    else if b = byte '\x7b' then do
      let ⟨quote, afterQuote, h₂⟩ ← token inside
      if quote ≠ byte '"' then throw .malformed
      let ⟨name, afterName, h₃⟩ ← stringRest afterQuote
      match payload? plain carrying name with
      | none => throw .unexpected
      | some reader =>
        let ⟨value, afterValue, h₄⟩ ← afterColon reader afterName
        let ⟨c, rest, h₅⟩ ← token afterValue
        if c = byte '\x7d' then
          have h₂ := shorter_trans h₁ h₂
          have h₃ := shorter_trans h₂ h₃
          have h₄ := shorter_trans h₃ h₄
          return ⟨value, rest, shorter_trans h₄ h₅⟩
        else throw .malformed
    else match scalar s with
      | .error e => .error e
      | .ok _ => .error .unexpected

end Json

/-- A field by its name, the unknown one included. -/
def Field.reader : Json.Reader Field :=
  Json.choice (fun name => (Field.unknown :: Field.allowed).find? (·.name.toList = name))
    fun _ => none

/-- An operator, or a token that is none. -/
def Operator.reader : Json.Reader Operator :=
  Json.choice (fun name => Operator.all.find? fun op => op.documentName?.map String.toList = some name)
    fun name => if name = "other".toList then
      some (Json.refine (some ∘ .other ∘ String.ofList) Json.string) else none

end ProductSegments
