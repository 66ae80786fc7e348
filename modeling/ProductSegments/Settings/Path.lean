import ProductSegments.Number.Radix
import ProductSegments.Settings.Value

/-!
# Paths

A setting is named by a path through tables and lists: a key, and behind it further keys between
dots and places between brackets.  Places are counted from zero, and negative ones from the end.

## Main definitions

* `Settings.Path` — the steps from the root of a tree to one of its parts.
* `Settings.Path.ofKey` — the path that a key spells.
* `Settings.Value.overlayAt` — the tree with something laid over what stands at a path.
-/

namespace ProductSegments.Settings

/-- A step from a value to one of its parts. -/
inductive Stride where
  | key (name : String)
  | place (index : Int)
  deriving DecidableEq, Repr

/-- The steps from the root of a tree to one of its parts. -/
abbrev Path := List Stride

namespace Path

/-! ### Spelling -/

/-- The character may stand in a plain key. -/
def isInner (c : Char) : Bool := c.isAlphanum || c = '_' || c = '-'

/-- A plain key at the front. -/
def key? (cs : List Char) : Option (Stride × List Char) :=
  let name := cs.takeWhile isInner
  if name.isEmpty then none else some (.key (String.ofList name), cs.dropWhile isInner)

/-- The text behind spaces and tabs. -/
def skipSpaces (cs : List Char) : List Char := cs.dropWhile fun c => c = ' ' || c = '\t'

/-- A place at the front, behind its opening bracket. -/
def place? (cs : List Char) : Option (Stride × List Char) := do
  let (negative, cs) := match skipSpaces cs with
    | '-' :: cs => (true, cs)
    | cs => (false, cs)
  let n ← Radix.natural? 10 (cs.takeWhile Char.isDigit)
  let index : Int := if negative then -(n : Int) else n
  match skipSpaces (cs.dropWhile Char.isDigit) with
  | ']' :: rest => if Integer.fits64 index then some (.place index, rest) else none
  | _ => none

/-- The steps behind the first key, at most `count`. -/
def tail? : (count : Nat) → List Char → Option Path
  | _, [] => some []
  | 0, _ => none
  | count + 1, c :: cs => do
    let (stride, rest) ← if c = '.' then key? cs else if c = '[' then place? cs else none
    return stride :: (← tail? count rest)

/-- The path that a text spells. -/
def ofChars? (cs : List Char) : Option Path := do
  let (first, rest) ← key? cs
  return first :: (← tail? rest.length rest)

/-- The path that a key spells.  A text that spells none is a key as it is. -/
def ofKey (key : String) : Path := (ofChars? key.toList).getD [.key key]

end Path

namespace Value

/-- The items of a list; other values have none. -/
def items : Value → List Value
  | list items => items
  | _ => []

/-- Items among which there is the one at an index, and its place.  Nothing stands where there was no
item. -/
def reach (index : Int) (items : List Value) : List Value × Nat :=
  if 0 ≤ index then
    (items ++ List.replicate (index.toNat + 1 - items.length) nothing, index.toNat)
  else
    let back := index.natAbs
    (List.replicate (back - items.length) nothing ++ items, items.length - back)

/-- The tree with something laid over what stands at a path.  What is on the way and is no table or
list, as it should be, is replaced by one. -/
def overlayAt (above : Value) : Path → Value → Value
  | [], below => below.overlay above
  | .key name :: path, below =>
    let inner := (lookup name below.entries).getD nothing
    table (put name (overlayAt above path inner) below.entries)
  | .place index :: path, below =>
    let (items, place) := reach index below.items
    list (items.modify place (overlayAt above path))

end Value

end ProductSegments.Settings
