import ProductSegments.Number.Decimal
import ProductSegments.Number.Layout

/-!
# Setting values

A source of settings is a tree of tables.  Sources are laid over each other: tables are merged key by
key, and any other value replaces what is below it.  What is wanted of a leaf is made from what it
holds if that can be done without guessing.

## Main definitions

* `Settings.Value` — the values of settings.
* `Settings.Value.overlay` — one tree laid over another.
* `Settings.Value.ofText` — the value that a text from the environment stands for.
* `Settings.Value.text?`, `Settings.Value.natural?`, `Settings.Value.flag?`, `Settings.Value.texts?` —
  what a value is worth as a text, a number that is not negative, a flag and a list of texts.
-/

namespace ProductSegments.Settings

/-- A value in a source of settings. -/
inductive Value where
  /-- A place that has been left empty. -/
  | nothing
  | text (s : String)
  | integer (n : Int)
  | number (x : Binary64)
  | flag (b : Bool)
  | list (items : List Value)
  | table (entries : List (String × Value))

instance : Inhabited Value := ⟨.table []⟩

namespace Value

/-- The entry of a table with a key. -/
def lookup (key : String) (entries : List (String × Value)) : Option Value :=
  (entries.find? fun (k, _) => k = key).map Prod.snd

/-- The entries of a table; other values have none. -/
def entries : Value → List (String × Value)
  | table entries => entries
  | _ => []

/-- The entries with the entry of a key put in. -/
def put (key : String) (value : Value) : List (String × Value) → List (String × Value)
  | [] => [(key, value)]
  | (k, v) :: others => if k = key then (k, value) :: others else (k, v) :: put key value others

/-- The table of some entries, of which the last one with a key counts. -/
def tableOf (entries : List (String × Value)) : Value :=
  table (entries.foldl (fun entries (key, value) => put key value entries) [])

mutual

/-- The tree `above` laid over a tree. -/
def overlay (below above : Value) : Value :=
  match above with
  | table entries => table (overlayAll below.entries entries)
  | value => value

/-- Entries laid over entries, one after the other. -/
def overlayAll (below : List (String × Value)) (above : List (String × Value)) :
    List (String × Value) :=
  match above with
  | [] => below
  | (key, value) :: others =>
    overlayAll (put key (overlay ((lookup key below).getD nothing) value) below) others

end

/-- The value behind some keys. -/
def get? (v : Value) : List String → Option Value
  | [] => some v
  | key :: path => match lookup key v.entries with
    | some value => value.get? path
    | none => none

/-! ### Values from texts -/

/-- Two ASCII texts are equal but for letter case. -/
def sameWord (a b : String) : Bool := a.toList.map Char.toLower = b.toList.map Char.toLower

/-- The number that some digits spell. -/
def digits? (cs : List Char) : Option Nat :=
  if cs.isEmpty || !cs.all Char.isDigit then none else some (Decimal.ofDigits cs)

/-- The number that digits spell, perhaps with a plus sign. -/
def natural (s : String) : Option Nat :=
  match s.toList with
  | '+' :: cs => digits? cs
  | cs => digits? cs

/-- The whole number of 64 bits that digits spell, perhaps with a sign. -/
def integer64? (s : String) : Option Int := do
  let n : Int ← match s.toList with
    | '-' :: cs => (digits? cs).map fun n => -(n : Int)
    | '+' :: cs => (digits? cs).map Int.ofNat
    | cs => (digits? cs).map Int.ofNat
  if Integer.fits64 n then some n else none

/-- The parts of a text between commas. -/
def commaSeparated (s : String) : List String := (s.toList.splitOn ',').map String.ofList

/-- The value that a text from the environment stands for: the first of a flag, a whole number, a
number, a list where one is wanted, and a text. -/
def ofText (wantsList : Bool) (s : String) : Value :=
  if sameWord s "true" then .flag true
  else if sameWord s "false" then .flag false
  else match integer64? s with
    | some n => .integer n
    | none => match Binary64.ofChars? s.toList with
      | some x => .number x
      | none => if wantsList then .list ((commaSeparated s).map .text) else .text s

/-! ### What values are worth -/

/-- The value as a text. -/
def text? : Value → Option String
  | text s => some s
  | integer n => some (toString n)
  | number x => some (Layout.setting.text x)
  | flag b => some (if b then "true" else "false")
  | nothing | list _ | table _ => none

/-- A number rounded to a whole one, halves away from zero, and cut off below zero and at 2⁶⁴. -/
def rounded : Binary64 → Nat
  | .nan => 0
  | .infinity negative => if negative then 0 else UInt64.size - 1
  | .finite negative quanta _ =>
    if negative then 0
    else Nat.min ((2 * quanta + Binary64.unit) / (2 * Binary64.unit)) (UInt64.size - 1)

/-- The value as a whole number below `bound`. -/
def natural? (bound : Nat) (v : Value) : Option Nat :=
  let n? := match v with
    | integer n => if n < 0 then none else some n.toNat
    | number x => some (rounded x)
    | flag b => some (if b then 1 else 0)
    | text s =>
      if ["true", "on", "yes"].any (sameWord s) then some 1
      else if ["false", "off", "no"].any (sameWord s) then some 0
      else natural s
    | nothing | list _ | table _ => none
  n?.filter (· < bound)

/-- The value as a flag. -/
def flag? : Value → Option Bool
  | flag b => some b
  | integer n => some (n ≠ 0)
  | number x => some (x.compare? .zero ≠ some .eq)
  | text s =>
    if ["1", "true", "on", "yes"].any (sameWord s) then some true
    else if ["0", "false", "off", "no"].any (sameWord s) then some false
    else none
  | nothing | list _ | table _ => none

/-- The value as a list of texts. -/
def texts? : Value → Option (List String)
  | list items => items.mapM text?
  | _ => none

/-- The value as something that may be left out. -/
def optional? {α : Type} (read : Value → Option α) : Value → Option (Option α)
  | nothing => some none
  | value => (read value).map some

/-- How to find the members of a record in a value: by name in a table, by place in a list. -/
def members? : Value → Option (Nat → String → Option Value)
  | table entries => some fun _ name => lookup name entries
  | list items => some fun place _ => items[place]?
  | _ => none

end Value

end ProductSegments.Settings
