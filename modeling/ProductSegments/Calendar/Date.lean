/-!
# Dates

Days of the proleptic Gregorian calendar, in the years −262143 to 262142.

## Main definitions

* `Date` — a day.
* `Date.ofCivil?` — the day with a year, a month and a day of the month.
* `Date.next?`, `Date.previous?` — the neighbouring days.
-/

namespace ProductSegments

namespace Calendar

/-- The year has a 29 February. -/
def isLeap (year : Int) : Bool := year % 4 = 0 && (year % 100 ≠ 0 || year % 400 = 0)

/-- The number of days in a month, zero for a month that does not exist. -/
def daysIn (year : Int) (month : Nat) : Nat :=
  match month with
  | 2 => if isLeap year then 29 else 28
  | 4 | 6 | 9 | 11 => 30
  | 1 | 3 | 5 | 7 | 8 | 10 | 12 => 31
  | _ => 0

/-- The first year with dates. -/
def firstYear : Int := -262143

/-- The last year with dates. -/
def lastYear : Int := 262142

end Calendar

open Calendar

/-- A day of the calendar. -/
structure Date where
  year : Int
  month : Nat
  day : Nat
  year_mem : firstYear ≤ year ∧ year ≤ lastYear
  day_mem : 1 ≤ day ∧ day ≤ daysIn year month
  deriving DecidableEq, Repr

namespace Date

/-- The day with the given year, month and day of the month, if it exists. -/
def ofCivil? (year : Int) (month day : Nat) : Option Date :=
  if h : (firstYear ≤ year ∧ year ≤ lastYear) ∧ 1 ≤ day ∧ day ≤ daysIn year month then
    some ⟨year, month, day, h.1, h.2⟩
  else none

@[simp] theorem ofCivil?_self (d : Date) : ofCivil? d.year d.month d.day = some d := by
  simp [ofCivil?, d.year_mem, d.day_mem]

/-- The following day. -/
def next? (d : Date) : Option Date :=
  ofCivil? d.year d.month (d.day + 1) <|> ofCivil? d.year (d.month + 1) 1 <|> ofCivil? (d.year + 1) 1 1

/-- The day before. -/
def previous? (d : Date) : Option Date :=
  if 1 < d.day then ofCivil? d.year d.month (d.day - 1)
  else if 1 < d.month then ofCivil? d.year (d.month - 1) (daysIn d.year (d.month - 1))
  else ofCivil? (d.year - 1) 12 31

end Date

end ProductSegments
