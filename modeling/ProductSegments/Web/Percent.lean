import ProductSegments.Text.Utf8

/-!
# Percent encoding

An address is written with plain characters only.  Any other character is written as its bytes,
each behind a percent sign.

## Main definitions

* `Web.Percent.encode` — a text in which the characters of a class are replaced.
* `Web.Percent.formField`, `Web.Percent.form` — names with values, as a form sends them.
-/

namespace ProductSegments.Web.Percent

/-- The digit of a number below sixteen. -/
def hexDigit (n : Nat) : Char := .ofNat (if n < 10 then '0'.toNat + n else 'A'.toNat + (n - 10))

/-- The character is a hexadecimal digit. -/
def isHexDigit (c : Char) : Bool :=
  c.isDigit || ('a' ≤ c && c ≤ 'f') || ('A' ≤ c && c ≤ 'F')

/-- A byte behind a percent sign. -/
def escape (b : UInt8) : List Char := ['%', hexDigit (b.toNat / 16), hexDigit (b.toNat % 16)]

/-- The character as its bytes. -/
def escapeChar (c : Char) : List Char := (String.utf8EncodeChar c).flatMap escape

/-- The text with the characters of a class as their bytes. -/
def encode (escapes : Char → Bool) (cs : List Char) : List Char :=
  cs.flatMap fun c => if escapes c then escapeChar c else [c]

/-- A control character, or one that is no ASCII character. -/
def isUnprintable (c : Char) : Bool := c.toNat < 0x20 || 0x7E < c.toNat

/-- The characters that a path cannot hold. -/
def inPath (c : Char) : Bool :=
  isUnprintable c || [' ', '"', '#', '<', '>', '?', '`', '\x7b', '\x7d'].contains c

/-- The characters that a query cannot hold. -/
def inQuery (c : Char) : Bool := isUnprintable c || [' ', '"', '#', '<', '>', '\''].contains c

/-- The characters that a form cannot hold: all but letters, digits and four marks. -/
def inForm (c : Char) : Bool := !(c.isAlphanum || ['*', '-', '.', '_'].contains c)

/-- A text as a form sends it: a plus stands for a space. -/
def formField (cs : List Char) : List Char :=
  (encode (fun c => inForm c && c ≠ ' ') cs).map fun c => if c = ' ' then '+' else c

/-- Names with values, as a form sends them. -/
def form (fields : List (String × String)) : List Char :=
  ['&'].intercalate (fields.map fun (name, value) =>
    formField name.toList ++ '=' :: formField value.toList)

example : String.ofList (form [("key", "a b&c=d"), ("secret", "é/~*-._")]) =
    "key=a+b%26c%3Dd&secret=%C3%A9%2F%7E*-._" := by decide +kernel

end ProductSegments.Web.Percent
