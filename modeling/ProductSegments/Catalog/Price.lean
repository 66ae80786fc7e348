import ProductSegments.Json.Reader
import ProductSegments.Text.Blank
import ProductSegments.Text.Utf8

/-!
# Prices of a shop

A shop writes prices as text, perhaps with a currency behind the number.  The number is looked for
byte by byte: a place in the text moves on over a sign, digits, a point with digits and an exponent,
and what stands in front of the place where it stops is read.

## Main definitions

* `Catalog.Price.numeralEnd?` — where the number ends that a text begins with.
* `Catalog.Price.ofText` — the price that a text begins with.
-/

namespace ProductSegments.Catalog.Price

open Json (byte)

variable (s : List UInt8)

/-- The place behind a sign, if one stands at a place. -/
def behindSign (i : Nat) : Nat :=
  if s[i]? = some (byte '+') ∨ s[i]? = some (byte '-') then i + 1 else i

/-- The place behind the digits from a place on. -/
def behindDigits (i : Nat) : Nat := i + ((s.drop i).takeWhile Json.isDigit).length

/-- The place behind a point and the digits after it, if a point stands behind the digits from `start`
on.  A point without any digit around it stays where it is. -/
def behindFraction (start i : Nat) : Nat :=
  if s[i]? = some (byte '.') then
    let stop := behindDigits s (i + 1)
    if start < i ∨ i + 1 < stop then stop else i
  else i

/-- The place behind an exponent, if one stands at a place.  An `e` without digits stays where it
is. -/
def behindExponent (i : Nat) : Nat :=
  if s[i]? = some (byte 'e') ∨ s[i]? = some (byte 'E') then
    let digits := behindSign s (i + 1)
    let stop := behindDigits s digits
    if digits < stop then stop else i
  else i

/-- Where the number ends that some bytes begin with, if they begin with one. -/
def numeralEnd? : Option Nat :=
  let start := behindSign s 0
  let stop := behindFraction s start (behindDigits s start)
  if stop = start then none else some (behindExponent s stop)

/-- The price that a text begins with, blanks aside.  A text that begins with no number, or with one
beyond every finite value, is the price zero. -/
def ofText (cs : List Char) : Binary64 :=
  let s := Utf8.encode (Text.trimStart cs)
  match numeralEnd? s with
  | none => .zero
  | some stop =>
    let value? := (Utf8.decode? (s.take stop)).bind Binary64.ofChars?
    (value?.filter Binary64.isFinite).getD .zero

theorem isFinite_ofText (cs : List Char) : (ofText cs).isFinite = true := by
  unfold ofText
  dsimp only
  split
  · rfl
  · next stop _ =>
    generalize (Utf8.decode? _).bind Binary64.ofChars? = value?
    cases h : value?.filter Binary64.isFinite with
    | none => rfl
    | some x => exact (Option.filter_eq_some_iff.mp h).2

example : ofText "  12.5USD".toList = ofText "12.5".toList := by decide +kernel

example : ofText "3e".toList = ofText "3".toList ∧ ofText "free".toList = .zero := by
  decide +kernel

end ProductSegments.Catalog.Price
