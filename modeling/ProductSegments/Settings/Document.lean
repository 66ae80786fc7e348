import ProductSegments.Json.Value
import ProductSegments.Settings.Value

/-!
# Settings as JSON documents

Settings files may be JSON documents.  A whole number that does not fit 64 bits with a sign is a number
like any other.

## Main definitions

* `Settings.Value.ofJson` — the value of a tree.
* `Settings.Document.entries?` — the entries of a document, unless it is malformed.
-/

namespace ProductSegments.Settings

/-- The value that a numeral spells. -/
def Value.ofNumeral (n : Json.Numeral) : Value :=
  let whole? : Option Int := do
    let digits ← n.natural?
    let whole : Int := if n.negative then -(digits : Int) else digits
    if (n.negative && digits = 0) || !Integer.fits64 whole then none else some whole
  match whole? with
  | some whole => .integer whole
  | none => .number n.value

/-- The value of a scalar. -/
def Value.ofScalar : Json.Scalar → Value
  | .null => .nothing
  | .flag b => .flag b
  | .number n => .ofNumeral n
  | .string s => .text (String.ofList s)

mutual

/-- The value of a tree. -/
def Value.ofJson : Json.Value → Value
  | .scalar value => .ofScalar value
  | .array items => .list (listOfJson items)
  | .object members => .table (entriesOfJson [] members)

/-- The values of the items of a list. -/
def listOfJson : List Json.Value → List Value
  | [] => []
  | item :: items => .ofJson item :: listOfJson items

/-- Entries with the members of an object put in, of which the last one with a name counts. -/
def entriesOfJson (entries : List (String × Value)) :
    List (List Char × Json.Value) → List (String × Value)
  | [] => entries
  | (name, value) :: members =>
    entriesOfJson (Value.put (String.ofList name) (.ofJson value) entries) members

end

namespace Document

/-- How deep the containers of a document may be nested. -/
def maxDepth : Nat := 127

/-- The entries of a document, which has to be an object. -/
def entries? (document : String) : Option (List (String × Value)) :=
  match Json.document (Json.value maxDepth) (Utf8.ofString document) with
  | .ok (.object members) => some (entriesOfJson [] members)
  | _ => none

end Document

end ProductSegments.Settings
