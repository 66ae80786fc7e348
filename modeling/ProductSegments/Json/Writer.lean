import ProductSegments.Number.Layout

/-!
# Writing JSON

Documents are written without blanks, with the members of an object in the given order.

## Main definitions

* `Json.written` — the functions that write one value each.
* `Json.escape` — a character inside a string.
-/

namespace ProductSegments.Json.Writer

/-- Two hexadecimal digits of a number below 256. -/
def hexPair (n : Nat) : List Char := [Nat.digitChar (n / 16), Nat.digitChar (n % 16)]

/-- A character inside a string: the quote, the backslash and the control characters are escaped,
five of the latter by a letter. -/
def escape (c : Char) : List Char :=
  match c with
  | '"' => ['\\', '"']
  | '\\' => ['\\', '\\']
  | '\x08' => ['\\', 'b']
  | '\t' => ['\\', 't']
  | '\n' => ['\\', 'n']
  | '\x0c' => ['\\', 'f']
  | '\r' => ['\\', 'r']
  | c => if c.toNat < 0x20 then '\\' :: 'u' :: '0' :: '0' :: hexPair c.toNat else [c]

/-- A string. -/
def string (text : String) : List Char := '"' :: (text.toList.flatMap escape ++ ['"'])

/-- `true` or `false`. -/
def flag (b : Bool) : List Char := if b then "true".toList else "false".toList

/-- A whole number. -/
def integer (n : Int) : List Char :=
  (if n < 0 then ['-'] else []) ++ Nat.toDigits 10 n.natAbs

/-- A number; one that is not finite is written `null`. -/
def number (x : Binary64) : List Char := if x.isFinite then Layout.json.chars x else "null".toList

/-- A value that may be missing. -/
def optional {α : Type} (write : α → List Char) : Option α → List Char
  | some a => write a
  | none => "null".toList

/-- Written values, separated by commas. -/
def separated : List (List Char) → List Char
  | [] => []
  | [value] => value
  | value :: values => value ++ ',' :: separated values

/-- A list of written values. -/
def array (values : List (List Char)) : List Char := '[' :: (separated values ++ [']'])

/-- An object of names with written values. -/
def object (members : List (String × List Char)) : List Char :=
  '\x7b' :: (separated (members.map fun (name, value) => string name ++ ':' :: value) ++ ['\x7d'])

end ProductSegments.Json.Writer
