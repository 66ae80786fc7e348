import ProductSegments.Calendar.Instant
import ProductSegments.Number.Decimal
import ProductSegments.Text.Blank
import ProductSegments.Text.Scan

/-!
# Timestamps

Three ways to write a point in time are read: the lenient form with an offset, which allows blanks
and short numbers; the strict form with an offset, in which every part has its full width; and the
form without an offset, which is taken as UTC.

## Main definitions

* `Timestamp.lenient?` — dates in product records.
* `Timestamp.strict?`, `Timestamp.plain?` — dates in shop records.
-/

namespace ProductSegments.Timestamp

open Text (Scan isBlank trimStart)

/-- The given character. -/
def char (expected : Char) : Scan Unit
  | c :: cs => if c = expected then some ((), cs) else none
  | [] => none

/-- At least `least` and at most `most` digits, as a number. -/
def number (least most : Nat) : Scan Nat := fun cs =>
  let ds := (cs.take most).takeWhile Char.isDigit
  if ds.length < least then none else some (Decimal.ofDigits ds, cs.drop ds.length)

/-- Any number of digits, at least one. -/
def anyNumber : Scan Nat := fun cs =>
  let ds := cs.takeWhile Char.isDigit
  if ds.isEmpty then none else some (Decimal.ofDigits ds, cs.dropWhile Char.isDigit)

/-- A year of at most four digits, or of any number of digits behind a sign. -/
def year : Scan Int
  | '-' :: cs => (anyNumber cs).map fun (n, rest) => (-(n : Int), rest)
  | '+' :: cs => (anyNumber cs).map fun (n, rest) => ((n : Int), rest)
  | cs => (number 1 4 cs).map fun (n, rest) => ((n : Int), rest)

/-- Digits behind a point as nanoseconds; digits behind the ninth do not count. -/
def fraction : Scan Nat
  | '.' :: cs =>
    let ds := cs.takeWhile Char.isDigit
    if ds.isEmpty then none
    else
      let kept := ds.take 9
      some (Decimal.ofDigits kept * tenPow (9 - kept.length), cs.dropWhile Char.isDigit)
  | cs => some (0, cs)

/-- The mark between date and time. -/
def separator : Scan Unit
  | c :: cs => if c = 'T' || c = 't' || c = ' ' then some ((), cs) else none
  | [] => none

/-- An offset from UTC in minutes: the letter of UTC, or a sign, hours, what `gap` reads, and minutes.
The sign may be the mathematical minus. -/
def offset (gap : Scan Unit) : Scan Int
  | [] => none
  | sign :: cs =>
    if sign = 'Z' || sign = 'z' then some (0, cs)
    else do
      let negative ←
        if sign = '+' then some false
        else if sign = '-' || sign = '−' then some true
        else none
      let (hours, cs) ← number 2 2 cs
      let ((), cs) ← gap cs
      let (minutes, cs) ← number 2 2 cs
      if 60 ≤ minutes then none
      else
        let total : Int := hours * 60 + minutes
        some (if negative then -total else total, cs)

/-- The date of a year, month and day, with the time of day that its parts give, at an offset. -/
def instant? (year : Int) (month day hour minute second nano : Nat) (offset : Int) :
    Option Instant := do
  let (second, nano) ← Instant.timeOfDay? hour minute second nano
  Instant.ofLocal? (← Date.ofCivil? year month day) second nano offset

/-- The given character behind any blanks. -/
def spacedChar (c : Char) : Scan Unit := fun cs => char c (trimStart cs)

/-- One or two digits behind any blanks. -/
def spacedPart : Scan Nat := fun cs => number 1 2 (trimStart cs)

/-- Colons and blanks, any number of either. -/
def colonsAndBlanks : Scan Unit := fun cs => some ((), cs.dropWhile fun c => c = ':' || isBlank c)

/-- The name of UTC in any letter case, or an offset that may have blanks inside. -/
def lenientOffset : Scan Int := fun cs =>
  match cs with
  | u :: t :: c :: rest =>
    if u.toLower = 'u' && t.toLower = 't' && c.toLower = 'c' then some (0, rest)
    else offset colonsAndBlanks cs
  | _ => offset colonsAndBlanks cs

/-- The lenient form with an offset. -/
def lenient? (cs : List Char) : Option Instant := do
  let (y, cs) ← year (trimStart cs)
  let ((), cs) ← spacedChar '-' cs
  let (month, cs) ← spacedPart cs
  let ((), cs) ← spacedChar '-' cs
  let (day, cs) ← spacedPart cs
  let ((), cs) ← separator cs
  let (hour, cs) ← spacedPart cs
  let ((), cs) ← spacedChar ':' cs
  let (minute, cs) ← spacedPart cs
  let ((), cs) ← spacedChar ':' cs
  let (second, cs) ← spacedPart cs
  let (nano, cs) ← fraction cs
  let (offset, cs) ← lenientOffset (trimStart cs)
  if (trimStart cs).isEmpty then instant? y month day hour minute second nano offset else none

/-- The strict form with an offset. -/
def strict? (cs : List Char) : Option Instant := do
  let (y, cs) ← number 4 4 cs
  let ((), cs) ← char '-' cs
  let (month, cs) ← number 2 2 cs
  let ((), cs) ← char '-' cs
  let (day, cs) ← number 2 2 cs
  let ((), cs) ← separator cs
  let (hour, cs) ← number 2 2 cs
  let ((), cs) ← char ':' cs
  let (minute, cs) ← number 2 2 cs
  let ((), cs) ← char ':' cs
  let (second, cs) ← number 2 2 cs
  let (nano, cs) ← fraction cs
  let (offset, cs) ← offset (char ':') cs
  if cs.isEmpty then instant? y month day hour minute second nano offset else none

/-- The form without an offset and without a fraction.  Blanks may stand before each number only. -/
def plain? (cs : List Char) : Option Instant := do
  let (y, cs) ← year (trimStart cs)
  let ((), cs) ← char '-' cs
  let (month, cs) ← spacedPart cs
  let ((), cs) ← char '-' cs
  let (day, cs) ← spacedPart cs
  let ((), cs) ← char 'T' cs
  let (hour, cs) ← spacedPart cs
  let ((), cs) ← char ':' cs
  let (minute, cs) ← spacedPart cs
  let ((), cs) ← char ':' cs
  let (second, cs) ← spacedPart cs
  if cs.isEmpty then instant? y month day hour minute second 0 0 else none

end ProductSegments.Timestamp
