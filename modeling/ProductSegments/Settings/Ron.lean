import ProductSegments.Number.Radix
import ProductSegments.Settings.Value
import ProductSegments.Text.Alphanumeric
import ProductSegments.Text.Comment
import ProductSegments.Text.Scan

/-!
# RON documents

Settings files may be RON documents.  Records are written in parentheses, with or without a name, and
their members have plain names; maps are written in braces, and their keys are values.

## Main definitions

* `Settings.Ron.string`, `Settings.Ron.rawString`, `Settings.Ron.character` — texts.
* `Settings.Ron.numeral?` — numbers.
* `Settings.Ron.value` — lists, records, maps and what is in them.
* `Settings.Ron.entries?` — the entries of a document, unless it is malformed.
-/

namespace ProductSegments.Settings.Ron

open Text (Scan isAlphanumeric listed)

/-- What may stand between the parts of a document. -/
def gaps : Text.GapStyle where
  isBlank c := c = ' ' || ('\t' ≤ c && c ≤ '\r') || c = '\u0085' || c = '\u200E' || c = '\u200F' ||
    c = '\u2028' || c = '\u2029'
  endsLine c := c = '\n'
  nests := true

/-! ### Texts -/

/-- The character that a letter behind a backslash stands for. -/
def escapeLetter? : Char → Option Char
  | '\'' => some '\''
  | '"' => some '"'
  | '\\' => some '\\'
  | 'n' => some '\n'
  | 'r' => some '\r'
  | 't' => some '\t'
  | '0' => some '\x00'
  | _ => none

/-- The character that stands escaped behind a backslash. -/
def escape : Scan Char
  | 'x' :: a :: b :: cs => (Radix.character? [a, b]).map fun c => (c, cs)
  | 'u' :: '\x7b' :: cs =>
    let ds := cs.takeWhile (Radix.isDigit 16)
    match cs.drop ds.length with
    | '\x7d' :: rest => if 6 < ds.length then none else (Radix.character? ds).map fun c => (c, rest)
    | _ => none
  | c :: cs => (escapeLetter? c).map fun c => (c, cs)
  | [] => none

/-- At most `count` characters of a string, up to its second quote. -/
def stringTail : (count : Nat) → Scan (List Char)
  | 0, _ => none
  | _, [] => none
  | count + 1, c :: cs =>
    if c = '"' then some ([], cs)
    else do
      let (c, rest) ← if c = '\\' then escape cs else some (c, cs)
      let (text, rest) ← stringTail count rest
      some (c :: text, rest)

/-- A string behind its first quote. -/
def string : Scan String := fun cs =>
  (stringTail (cs.length + 1) cs).map fun (text, rest) => (String.ofList text, rest)

/-- The text up to a mark, and what follows the mark. -/
def untilMark (mark : List Char) : Scan (List Char)
  | [] => none
  | c :: cs =>
    if mark.isPrefixOf (c :: cs) then some ([], (c :: cs).drop mark.length)
    else (untilMark mark cs).map fun (text, rest) => (c :: text, rest)

/-- A string without escapes behind its `r`.  Its quotes stand between as many number signs. -/
def rawString : Scan String := fun cs =>
  let signs := cs.takeWhile (· = '#')
  match cs.drop signs.length with
  | '"' :: rest => (untilMark ('"' :: signs) rest).map fun (text, rest) => (String.ofList text, rest)
  | _ => none

/-- A single character behind its first quote. -/
def character : Scan String := fun cs => do
  let (c, rest) ← match cs with
    | '\\' :: cs => escape cs
    | c :: cs => if c = '\'' then none else some (c, cs)
    | [] => none
  match rest with
  | '\'' :: rest => some (c.toString, rest)
  | _ => none

/-! ### Numbers -/

/-- The digits of a numeral without the underscores between them. -/
def plainDigits (cs : List Char) : List Char :=
  if cs.head? = some '_' then [] else cs.filter (· ≠ '_')

/-- A whole number without its sign. -/
def natural? : List Char → Option Nat
  | '0' :: 'x' :: ds => Radix.natural? 16 (plainDigits ds)
  | '0' :: 'o' :: ds => Radix.natural? 8 (plainDigits ds)
  | '0' :: 'b' :: ds => Radix.natural? 2 (plainDigits ds)
  | ds => Radix.natural? 10 (plainDigits ds)

/-- The value of a numeral.  Whole numbers fit 64 bits, without a sign if they are not negative. -/
def numeral? (cs : List Char) : Option Value :=
  let (negative, body) := Decimal.scanSign cs
  if body = "inf".toList then some (.number (.infinity negative))
  else if body = "NaN".toList then some (.number .nan)
  else match natural? body with
    | some n =>
      let whole : Int := if negative then -(n : Int) else n
      if Integer.fits64 whole || (!negative && n < UInt64.size) then some (.integer whole) else none
    | none => (Decimal.ofChars? (plainDigits body)).map fun d =>
      .number (Decimal.toBinary64 { d with negative })

/-! ### Values -/

/-- The character may stand in a name. -/
def isNamePart (c : Char) : Bool := isAlphanumeric c || c = '_'

/-- A name, or nothing. -/
def name? (cs : List Char) : Option (List Char × List Char) :=
  let letters := cs.takeWhile isNamePart
  if letters.isEmpty || letters.head?.any Char.isDigit then none
  else some (letters, cs.drop letters.length)

/-- A key that `key` reads, with the value behind its colon. -/
def pair (key : Scan String) (value : Scan Value) : Scan (String × Value) := fun cs => do
  let (k, rest) ← key cs
  match gaps.skip rest with
  | ':' :: rest =>
    let (v, rest) ← value (gaps.skip rest)
    some ((k, v), rest)
  | _ => none

/-- The name of a member of a record. -/
def memberName : Scan String := fun cs =>
  (name? cs).map fun (letters, rest) => (String.ofList letters, rest)

/-- A value that is a text. -/
def textKey (value : Scan Value) : Scan String := fun cs => do
  match ← value cs with
  | (.text s, rest) => some (s, rest)
  | _ => none

/-- The character behind the name of a first member is a colon. -/
def isNamed (cs : List Char) : Bool :=
  match name? (gaps.skip cs) with
  | some (_, rest) => (gaps.skip rest).head? = some ':'
  | none => false

/-- What stands in parentheses, behind the first one: the members of a record, or a list. -/
def record (value : Scan Value) : Scan Value := fun cs =>
  if cs.head? = some ')' then some (.nothing, cs.drop 1)
  else if isNamed cs then
    (listed gaps.skip ')' (pair memberName value) cs).map fun (members, rest) =>
      (Value.tableOf members, rest)
  else (listed gaps.skip ')' value cs).map fun (items, rest) => (.list items, rest)

/-- What a name stands for that no parentheses follow. -/
def ofName (name : List Char) : Value :=
  if name = "true".toList then .flag true
  else if name = "false".toList then .flag false
  else if name = "inf".toList then .number (.infinity false)
  else if name = "NaN".toList then .number .nan
  else .nothing

/-- The one value of a list. -/
def only? : Value → Option Value
  | .list [v] => some v
  | _ => none

/-- A value with at most `depth` lists, records and maps inside each other. -/
def value : (depth : Nat) → Scan Value
  | depth, cs => match cs with
    | '"' :: cs => (string cs).map fun (s, rest) => (.text s, rest)
    | '\'' :: cs => (character cs).map fun (s, rest) => (.text s, rest)
    | 'r' :: '"' :: cs => (rawString ('"' :: cs)).map fun (s, rest) => (.text s, rest)
    | 'r' :: '#' :: cs => (rawString ('#' :: cs)).map fun (s, rest) => (.text s, rest)
    | '[' :: cs => match depth with
      | 0 => none
      | depth + 1 => do
        let (items, rest) ← listed gaps.skip ']' (value depth) cs
        some (.list items, rest)
    | '\x7b' :: cs => match depth with
      | 0 => none
      | depth + 1 => do
        let (members, rest) ←
          listed gaps.skip '\x7d' (pair (textKey (value depth)) (value depth)) cs
        some (Value.tableOf members, rest)
    | '(' :: cs => match depth with
      | 0 => none
      | depth + 1 => record (value depth) cs
    | cs => match name? cs with
      | some (name, rest) => match gaps.skip rest, depth with
        | '(' :: inner, depth + 1 =>
          if name = "Some".toList then do
            let (items, rest) ← listed gaps.skip ')' (value depth) inner
            some (← only? (.list items), rest)
          else record (value depth) inner
        | '(' :: _, 0 => none
        | _, _ => if name = "Some".toList then none else some (ofName name, rest)
      | none =>
        let isInner (c : Char) := c.isAlphanum || "+-._".toList.contains c
        let word := cs.takeWhile isInner
        (numeral? word).map fun v => (v, cs.drop word.length)

/-- How deep lists, records and maps may be nested. -/
def maxDepth : Nat := 127

/-- The entries of a document, which has to be a record or a map. -/
def entries? (document : String) : Option (List (String × Value)) := do
  let (v, rest) ← value maxDepth (gaps.skip document.toList)
  match v, gaps.skip rest with
  | .table entries, [] => some entries
  | _, _ => none

end ProductSegments.Settings.Ron
