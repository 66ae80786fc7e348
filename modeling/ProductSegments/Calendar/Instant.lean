import ProductSegments.Calendar.Date

/-!
# Instants

A point in time in UTC, to the nanosecond.  A leap second is counted as extra nanoseconds of the
last second of its minute.

## Main definitions

* `Instant` — a day, a second of that day and nanoseconds.
* `Instant.ofCivil?` — the instant of a local date and time at an offset from UTC.
* `Instant.chars` — the instant as text.
-/

namespace ProductSegments

/-- A point in time. -/
structure Instant where
  date : Date
  /-- Seconds since midnight. -/
  second : Nat
  /-- Nanoseconds; a whole second or more inside a leap second. -/
  nano : Nat
  second_lt : second < 86400
  nano_lt : nano < 1000000000 ∨ second % 60 = 59 ∧ nano < 2000000000
  deriving DecidableEq, Repr

namespace Instant

/-- The time of day with the given hour, minute, second and nanoseconds, as seconds since midnight
and nanoseconds; a sixtieth second is a leap second. -/
def timeOfDay? (hour minute second nano : Nat) : Option (Nat × Nat) :=
  if 24 ≤ hour ∨ 60 ≤ minute ∨ 61 ≤ second ∨ 1000000000 ≤ nano then none
  else if second = 60 then some (hour * 3600 + minute * 60 + 59, nano + 1000000000)
  else some (hour * 3600 + minute * 60 + second, nano)

/-- The instant at `second` and `nano` of a day, if they exist. -/
def ofDay? (date : Date) (second nano : Nat) : Option Instant :=
  if h : second < 86400 ∧ (nano < 1000000000 ∨ second % 60 = 59 ∧ nano < 2000000000) then
    some ⟨date, second, nano, h.1, h.2⟩
  else none

/-- The instant of a local time of day on a date, where local time is `offset` minutes ahead of
UTC by less than a day. -/
def ofLocal? (date : Date) (second nano : Nat) (offset : Int) : Option Instant := do
  if offset.natAbs < 1440 then
    let utc : Int := second - offset * 60
    if utc < 0 then ofDay? (← date.previous?) (utc + 86400).toNat nano
    else if 86400 ≤ utc then ofDay? (← date.next?) (utc - 86400).toNat nano
    else ofDay? date utc.toNat nano
  else none

/-! ### Text -/

/-- A number with zeros in front, at least `width` digits long. -/
def padded (width n : Nat) : List Char :=
  let ds := Nat.toDigits 10 n
  List.replicate (width - ds.length) '0' ++ ds

/-- A year: four digits, or a sign and at least four digits outside the years 0 to 9999. -/
def yearChars (year : Int) : List Char :=
  if 0 ≤ year ∧ year ≤ 9999 then padded 4 year.toNat
  else (if year < 0 then '-' else '+') :: padded 4 year.natAbs

/-- A fraction of a second in as few of zero, three, six or nine digits as it needs. -/
def fractionChars (nano : Nat) : List Char :=
  if nano = 0 then []
  else if nano % 1000000 = 0 then '.' :: padded 3 (nano / 1000000)
  else if nano % 1000 = 0 then '.' :: padded 6 (nano / 1000)
  else '.' :: padded 9 nano

/-- The instant as text, with the mark of UTC. -/
def chars (t : Instant) : List Char :=
  let leap := t.nano / 1000000000
  yearChars t.date.year ++ '-' :: (padded 2 t.date.month ++ '-' :: (padded 2 t.date.day ++
    'T' :: (padded 2 (t.second / 3600) ++ ':' :: (padded 2 (t.second / 60 % 60) ++
    ':' :: (padded 2 (t.second % 60 + leap) ++ (fractionChars (t.nano % 1000000000) ++ ['Z']))))))

end Instant

end ProductSegments
