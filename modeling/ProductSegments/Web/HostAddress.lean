import ProductSegments.Number.Power
import ProductSegments.Number.Radix

/-!
# Host addresses

The address of a host is a number of 32 or of 128 bits.  A short one is spelled by one to four numbers
between dots, of which the last one takes up all the bytes that are left; each is decimal, octal behind
a zero, or hexadecimal behind `0x`.  A long one is spelled by eight hexadecimal groups between
colons; two colons stand for as many zeros as are missing.

## Main definitions

* `Web.HostAddress` — an address.
* `Web.HostAddress.short?`, `Web.HostAddress.long?` — the addresses that texts spell.
* `Web.HostAddress.isOwn` — a machine can listen there whatever its network is.
-/

namespace ProductSegments.Web

/-- The address of a host. -/
inductive HostAddress where
  | short (bits : Nat)
  | long (bits : Nat)
  deriving DecidableEq, Repr

namespace HostAddress

/-! ### Short addresses -/

/-- The number that a text spells, in the radix that its front tells. -/
def number? : List Char → Option Nat
  | ['0'] => some 0
  | '0' :: 'x' :: ds | '0' :: 'X' :: ds => Radix.natural? 16 ds
  | '0' :: ds => Radix.natural? 8 ds
  | ds => Radix.natural? 10 ds

/-- The bits of an address from the value of the bytes read so far, of which `left` are to come. -/
def bitsFrom (value : Nat) : (left : Nat) → List Nat → Option Nat
  | 0, _ | _, [] => none
  | left, [last] =>
    let limit := twoPow (8 * left)
    if last < limit then some (value * limit + last) else none
  | left + 1, byte :: others => if byte < 256 then bitsFrom (value * 256 + byte) left others else none

/-- The short address that a text spells. -/
def short? (cs : List Char) : Option HostAddress := do
  let numbers ← (cs.splitOn '.').mapM number?
  return .short (← bitsFrom 0 4 numbers)

/-! ### Long addresses -/

/-- The value of a group of at most four digits. -/
def group? (cs : List Char) : Option Nat := if cs.length ≤ 4 then Radix.natural? 16 cs else none

/-- The value of a byte that is spelled without superfluous zeros. -/
def byte? (cs : List Char) : Option Nat :=
  if cs.head? = some '0' && cs.length ≠ 1 then none else (Radix.natural? 10 cs).filter (· < 256)

/-- The two groups that four bytes between dots make. -/
def quad? (cs : List Char) : Option (List Nat) := do
  match ← (cs.splitOn '.').mapM byte? with
  | [a, b, c, d] => some [a * 256 + b, c * 256 + d]
  | _ => none

/-- The groups that a text spells, of which the last two may be spelled as four bytes. -/
def groups? (mayEndInQuad : Bool) (cs : List Char) : Option (List Nat) :=
  if cs.isEmpty then some []
  else
    let parts := cs.splitOn ':'
    let front := parts.dropLast
    let last := parts.getLastD []
    if mayEndInQuad && last.contains '.' then do return (← front.mapM group?) ++ (← quad? last)
    else parts.mapM group?

/-- The text in front of the first two colons in a row, and the text behind them. -/
def splitGap? (read : List Char) : List Char → Option (List Char × List Char)
  | ':' :: ':' :: rest => some (read.reverse, rest)
  | c :: cs => splitGap? (c :: read) cs
  | [] => none

/-- All the groups that a text spells. -/
def allGroups? (cs : List Char) : Option (List Nat) :=
  match splitGap? [] cs with
  | none => (groups? true cs).filter (·.length = 8)
  | some (front, back) => do
    let front ← groups? false front
    let back ← groups? true back
    let missing := 8 - (front.length + back.length)
    if missing = 0 then none else some (front ++ List.replicate missing 0 ++ back)

/-- The long address that a text spells. -/
def long? (cs : List Char) : Option HostAddress :=
  (allGroups? cs).map fun groups => .long (Radix.ofDigits 65536 groups)

/-! ### Listening -/

/-- The short address that a long one stands for. -/
def mapped? (bits : Nat) : Option Nat :=
  if bits / 4294967296 = 65535 then some (bits % 4294967296) else none

/-- A machine can listen at a short address: all its addresses, one of its own, one of a group, or the
one for everybody. -/
def isOwnShort (bits : Nat) : Bool :=
  let first := bits / 16777216
  bits = 0 || first = 127 || (224 ≤ first && first < 240) || bits = 4294967295

/-- A machine can listen at an address whatever its network is. -/
def isOwn : HostAddress → Bool
  | short bits => isOwnShort bits
  | long bits => bits ≤ 1 || (mapped? bits).any isOwnShort

/-- Who listens at the address stands in the way of who listens at all short addresses. -/
def meetsShort : HostAddress → Bool
  | short _ => true
  | long bits => bits ≠ 1

end HostAddress

end ProductSegments.Web
