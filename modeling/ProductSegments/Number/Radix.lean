/-!
# Digits

A digit is a number below a radix of at most sixteen.  Letters stand for the digits from ten on, and
their case does not count.

## Main definitions

* `Radix.digit?` — the value of a digit.
* `Radix.natural?` — the number that digits spell.
* `Radix.character?` — the character with that number.
-/

namespace ProductSegments.Radix

/-- The value of a digit in a radix. -/
def digit? (radix : Nat) (c : Char) : Option Nat :=
  let value? :=
    if c.isDigit then some (c.toNat - '0'.toNat)
    else if 'a' ≤ c ∧ c ≤ 'f' then some (c.toNat - 'a'.toNat + 10)
    else if 'A' ≤ c ∧ c ≤ 'F' then some (c.toNat - 'A'.toNat + 10)
    else none
  value?.filter (· < radix)

/-- The character is a digit in a radix. -/
def isDigit (radix : Nat) (c : Char) : Bool := (digit? radix c).isSome

/-- The number of a list of digits, the highest first. -/
def ofDigits (radix : Nat) (ds : List Nat) : Nat := ds.foldl (fun n d => n * radix + d) 0

/-- The number that a text of at least one digit spells. -/
def natural? (radix : Nat) (cs : List Char) : Option Nat :=
  if cs.isEmpty then none else (cs.mapM (digit? radix)).map (ofDigits radix)

/-- The character whose number hexadecimal digits spell. -/
def character? (ds : List Char) : Option Char := do
  let n ← natural? 16 ds
  if n.isValidChar then some (.ofNat n) else none

end ProductSegments.Radix
