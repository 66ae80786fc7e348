import ProductSegments.Number.Binary64

/-!
# Decimal numerals

A decimal numeral is a sign, digits and a power of ten.  Reading one is exact; a binary64 number
is reached by one rounding at the end.

## Main definitions

* `Integer.fits64` — the range of whole numbers that can be kept.
* `Decimal` — `±digits · 10 ^ exponent`.
* `Decimal.scan` — the longest numeral at the front of a text, and what follows it.
* `Decimal.isNumeral` — a text is a numeral from end to end.
* `Decimal.toBinary64` — the nearest binary64 number, an infinity on overflow.
* `Binary64.ofChars?` — the binary64 number that a numeral or a word spells.
-/

namespace ProductSegments

/-- The whole number fits 64 bits with a sign. -/
def Integer.fits64 (n : Int) : Bool := Int64.minValue.toInt ≤ n && n ≤ Int64.maxValue.toInt

/-- The decimal number `±digits · 10 ^ exponent`. -/
structure Decimal where
  negative : Bool
  digits : Nat
  exponent : Int
  deriving DecidableEq, Repr

namespace Decimal

/-- The number that a list of decimal digits spells, the highest first. -/
def ofDigits (ds : List Char) : Nat := ds.foldl (fun n d => 10 * n + (d.toNat - '0'.toNat)) 0

/-- A sign at the front of a text, and what follows it; no sign is a plus. -/
def scanSign : List Char → Bool × List Char
  | '-' :: cs => (true, cs)
  | '+' :: cs => (false, cs)
  | cs => (false, cs)

/-- An exponent at the front of a text, and what follows it.  An `e` without digits is no exponent
and stays where it is. -/
def scanExponent (cs : List Char) : Int × List Char :=
  match cs with
  | e :: tail =>
    if e = 'e' || e = 'E' then
      let (negative, tail) := scanSign tail
      let ds := tail.takeWhile Char.isDigit
      if ds.isEmpty then (0, cs)
      else (if negative then -(ofDigits ds : Int) else ofDigits ds, tail.dropWhile Char.isDigit)
    else (0, cs)
  | [] => (0, [])

/-- A point with the digits behind it, and what follows. -/
def scanFraction : List Char → List Char × List Char
  | '.' :: cs => (cs.takeWhile Char.isDigit, cs.dropWhile Char.isDigit)
  | cs => ([], cs)

/-- The longest numeral at the front of a text, and what follows it: a sign, digits, a point,
digits and an exponent, with at least one digit before the exponent. -/
def scan (cs : List Char) : Option (Decimal × List Char) :=
  let (negative, cs) := scanSign cs
  let whole := cs.takeWhile Char.isDigit
  let (fraction, cs) := scanFraction (cs.dropWhile Char.isDigit)
  if whole.isEmpty && fraction.isEmpty then none
  else
    let (exponent, rest) := scanExponent cs
    some (⟨negative, ofDigits (whole ++ fraction), exponent - fraction.length⟩, rest)

/-- The numeral that a whole text spells. -/
def ofChars? (cs : List Char) : Option Decimal :=
  match scan cs with
  | some (d, []) => some d
  | _ => none

/-- The whole text is a numeral. -/
def isNumeral (cs : List Char) : Bool :=
  let cs := (scanSign cs).2
  let whole := cs.takeWhile Char.isDigit
  let (fraction, cs) := scanFraction (cs.dropWhile Char.isDigit)
  if whole.isEmpty && fraction.isEmpty then false
  else match cs with
    | [] => true
    | e :: tail =>
      if e = 'e' || e = 'E' then
        let tail := (scanSign tail).2
        !(tail.takeWhile Char.isDigit).isEmpty && (tail.dropWhile Char.isDigit).isEmpty
      else false

/-- The binary64 number nearest to a decimal number.  Powers of ten beyond every finite value are
not computed: the result is an infinity or a zero whatever the digits are. -/
def toBinary64 (d : Decimal) : Binary64 :=
  if d.digits = 0 then .round d.negative 0 1
  else if 400 < d.exponent then .infinity d.negative
  else if d.exponent + d.digits.log2 < -401 then .round d.negative 0 1
  else match d.exponent with
    | .ofNat k => .ofRatio d.negative (d.digits * tenPow k) 1
    | .negSucc k => .ofRatio d.negative d.digits (tenPow (k + 1))

end Decimal

/-- The binary64 number that a whole text spells: a numeral, or in whatever letter case a name of
infinity or of not-a-number. -/
def Binary64.ofChars? (cs : List Char) : Option Binary64 :=
  match Decimal.ofChars? cs with
  | some d => some d.toBinary64
  | none =>
    let (negative, word) := Decimal.scanSign cs
    let word := word.map Char.toLower
    if word = "inf".toList || word = "infinity".toList then some (.infinity negative)
    else if word = "nan".toList then some .nan
    else none

end ProductSegments
