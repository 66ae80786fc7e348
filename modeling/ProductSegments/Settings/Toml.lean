import ProductSegments.Calendar.Timestamp
import ProductSegments.Number.Radix
import ProductSegments.Settings.Value
import ProductSegments.Text.Scan

/-!
# TOML documents

Settings files are TOML documents.  A document is a list of keys with values under headers; the
headers and the dotted keys name the tables of a tree.

## Main definitions

* `Settings.Toml.Node` — the tree under construction, which remembers how each table came about.
* `Settings.Toml.assign`, `Settings.Toml.openTable`, `Settings.Toml.openItem` — what a key and the two
  kinds of headers do to the tree.
* `Settings.Toml.scalar?` — numbers, flags and dates; dates are kept as texts.
* `Settings.Toml.entries?` — the entries of a document, unless it is malformed.
-/

namespace ProductSegments.Settings.Toml

open Text (Scan listed)

/-! ### The tree -/

/-- How a table came about. -/
inductive Origin where
  /-- By the header of a table inside it. -/
  | implied
  /-- By its own header. -/
  | headed
  /-- By a dotted key. -/
  | dotted
  deriving DecidableEq, Repr

/-- A part of the tree. -/
inductive Node where
  | leaf (value : Value)
  | table (origin : Origin) (entries : List (String × Node))
  /-- The tables that one header has named several times, the latest first. -/
  | items (latest : List (String × Node)) (earlier : List Value)

/-- The parts of a table by their keys. -/
abbrev Entries := List (String × Node)

/-- The part with a key. -/
def Entries.get? (entries : Entries) (key : String) : Option Node :=
  (entries.find? fun (k, _) => k = key).map Prod.snd

/-- The part with a key put in. -/
def Entries.put (entries : Entries) (key : String) (node : Node) : Entries :=
  if (entries.get? key).isSome then
    entries.map fun (k, n) => if k = key then (k, node) else (k, n)
  else entries ++ [(key, node)]

mutual

/-- The value of a part of the tree. -/
def Node.value : Node → Value
  | .leaf value => value
  | .table _ entries => .table (entryValues entries)
  | .items latest earlier => .list (earlier.reverse ++ [.table (entryValues latest)])

/-- The values of the parts of a table. -/
def entryValues : List (String × Node) → List (String × Value)
  | [] => []
  | (key, node) :: others => (key, node.value) :: entryValues others

end

/-- The origin of a table that has been reached over `path` by a dotted key.  A dotted key that puts a
value right into a table makes the table its own. -/
def Origin.reached (path : List String) (origin : Origin) : Origin :=
  if path.length = 1 then .dotted else origin

/-- Give the key at the end of a dotted key a value.  It must be new.  The tables on the way to it must
not have headers of their own; but the way may go through the latest of several tables of one name
to a table inside it. -/
def assign (value : Value) : List String → Entries → Option Entries
  | [], _ => none
  | [key], entries =>
    if (entries.get? key).isSome then none else some (entries.put key (.leaf value))
  | key :: path, entries => match entries.get? key with
    | none => (assign value path []).map fun inner => entries.put key (.table .dotted inner)
    | some (.table .headed _) | some (.leaf _) => none
    | some (.table origin inner) =>
      (assign value path inner).map fun inner => entries.put key (.table (origin.reached path) inner)
    | some (.items latest earlier) =>
      if path.length = 1 then none
      else (assign value path latest).map fun latest => entries.put key (.items latest earlier)

/-- Change the table at a path, which goes through the latest of several tables of one name.
Tables that do not exist yet are implied. -/
def changeAt (change : Entries → Option Entries) : List String → Entries → Option Entries
  | [], entries => change entries
  | key :: path, entries => match entries.get? key with
    | none => (changeAt change path []).map fun inner => entries.put key (.table .implied inner)
    | some (.leaf _) => none
    | some (.table origin inner) =>
      (changeAt change path inner).map fun inner => entries.put key (.table origin inner)
    | some (.items latest earlier) =>
      (changeAt change path latest).map fun latest => entries.put key (.items latest earlier)

/-- The header of a table: it must be new, or implied so far. -/
def openTable (path : List String) (entries : Entries) : Option Entries :=
  match path.reverse with
  | [] => none
  | key :: front => changeAt (fun entries => match entries.get? key with
      | none => some (entries.put key (.table .headed []))
      | some (.table .implied inner) => some (entries.put key (.table .headed inner))
      | _ => none) front.reverse entries

/-- The header of one of several tables: a new one is begun. -/
def openItem (path : List String) (entries : Entries) : Option Entries :=
  match path.reverse with
  | [] => none
  | key :: front => changeAt (fun entries => match entries.get? key with
      | none => some (entries.put key (.items [] []))
      | some (.items latest earlier) =>
        some (entries.put key (.items [] (.table (entryValues latest) :: earlier)))
      | _ => none) front.reverse entries

/-! ### Blanks and strings -/

/-- The character may stand in comments and strings. -/
def isText (c : Char) : Bool := c = '\t' || (0x20 ≤ c.toNat && c.toNat ≠ 0x7F)

/-- The text behind spaces and tabs. -/
def skipSpaces (cs : List Char) : List Char := cs.dropWhile fun c => c = ' ' || c = '\t'

/-- The text behind blanks, line breaks and comments. -/
def skipGap : (inComment : Bool) → List Char → List Char
  | _, [] => []
  | inComment, c :: cs =>
    let isBreak := c = '\n' || (c = '\r' && cs.head? = some '\n')
    if isBreak then skipGap (inComment && c = '\r') cs
    else if inComment then if isText c then skipGap true cs else c :: cs
    else if c = ' ' || c = '\t' then skipGap false cs
    else if c = '#' then skipGap true cs
    else c :: cs

/-- The text behind the end of a line, which may be commented. -/
def lineEnd? (cs : List Char) : Option (List Char) :=
  let rest := match skipSpaces cs with
    | '#' :: cs => cs.dropWhile isText
    | cs => cs
  match rest with
  | [] => some []
  | '\n' :: rest | '\r' :: '\n' :: rest => some rest
  | _ => none

/-- Where a string stands between two characters. -/
inductive Place where
  | text
  /-- Behind a backslash. -/
  | escape
  /-- Inside the digits of an escape, of which some are left. -/
  | digits (left value : Nat)
  /-- Behind a backslash at the end of a line; `broken` says that the line break has come. -/
  | folding (broken : Bool)
  deriving DecidableEq, Repr

/-- The character that a letter behind a backslash stands for. -/
def escapeLetter? : Char → Option Char
  | 'b' => some '\x08'
  | 't' => some '\t'
  | 'n' => some '\n'
  | 'f' => some '\x0c'
  | 'r' => some '\r'
  | 'e' => some '\x1b'
  | '"' => some '"'
  | '\\' => some '\\'
  | _ => none

/-- The quotes at the end of a string over several lines that belong to it, and the text behind; of a
run of quotes the last three close the string. -/
def closing? (quote : Char) (cs : List Char) : Option (List Char × List Char) :=
  let run := (cs.takeWhile (· = quote)).length
  if run < 3 then none
  else
    let taken := Nat.min run 5
    some (List.replicate (taken - 3) quote, cs.drop taken)

/-- A character of a string as it is: it ends the string, or adds characters to it. -/
def plainStep (quote : Char) (isLong : Bool) (c : Char) (cs : List Char) :
    Option ((List Char × Place) ⊕ (List Char × List Char)) :=
  if c = quote then
    if isLong then match closing? quote (c :: cs) with
      | some ended => some (.inr ended)
      | none => some (.inl ([c], .text))
    else some (.inr ([], cs))
  else if c = '\\' && quote = '"' then some (.inl ([], .escape))
  else if c = '\n' then if isLong then some (.inl ([c], .text)) else none
  else if c = '\r' then
    if isLong && cs.head? = some '\n' then some (.inl ([c], .text)) else none
  else if isText c then some (.inl ([c], .text))
  else none

/-- One character of a string; `cs` is what follows it. -/
def stringStep (quote : Char) (isLong : Bool) (place : Place) (c : Char) (cs : List Char) :
    Option ((List Char × Place) ⊕ (List Char × List Char)) :=
  let isBreak := c = '\n' || (c = '\r' && cs.head? = some '\n')
  match place with
  | .text => plainStep quote isLong c cs
  | .escape =>
    if c = 'u' then some (.inl ([], .digits 4 0))
    else if c = 'U' then some (.inl ([], .digits 8 0))
    else if c = 'x' then some (.inl ([], .digits 2 0))
    else if isLong && (c = ' ' || c = '\t' || isBreak) then some (.inl ([], .folding (c = '\n')))
    else (escapeLetter? c).map fun e => .inl ([e], .text)
  | .digits left value => do
    let value := value * 16 + (← Radix.digit? 16 c)
    if 1 < left then some (.inl ([], .digits (left - 1) value))
    else if value.isValidChar then some (.inl ([.ofNat value], .text))
    else none
  | .folding broken =>
    if c = ' ' || c = '\t' || isBreak then some (.inl ([], .folding (broken || c = '\n')))
    else if broken then plainStep quote isLong c cs
    else none

/-- The characters of a string behind those read so far, which are reversed. -/
def stringTail (quote : Char) (isLong : Bool) (read : List Char) : Place → Scan (List Char)
  | _, [] => none
  | place, c :: cs => match stringStep quote isLong place c cs with
    | none => none
    | some (.inl (more, place)) => stringTail quote isLong (more.reverse ++ read) place cs
    | some (.inr (more, rest)) => some (read.reverse ++ more, rest)

/-- A string on one line behind its first quote. -/
def shortString (quote : Char) : Scan (List Char) := stringTail quote false [] .text

/-- A string that may have several lines behind its first three quotes.  A line break directly behind
them does not count. -/
def longString (quote : Char) (cs : List Char) : Option (List Char × List Char) :=
  stringTail quote true [] .text (match cs with
    | '\n' :: rest | '\r' :: '\n' :: rest => rest
    | cs => cs)

/-! ### Keys -/

/-- A key without dots. -/
def simpleKey : Scan String
  | '"' :: cs => (shortString '"' cs).map fun (key, rest) => (String.ofList key, rest)
  | '\'' :: cs => (shortString '\'' cs).map fun (key, rest) => (String.ofList key, rest)
  | cs =>
    let isBare (c : Char) := c.isAlphanum || c = '_' || c = '-'
    let key := cs.takeWhile isBare
    if key.isEmpty then none else some (String.ofList key, cs.dropWhile isBare)

/-- A key with at most `count` parts between dots, and the blanks behind it. -/
def dottedKey : (count : Nat) → Scan (List String)
  | 0, _ => none
  | count + 1, cs => do
    let (key, rest) ← simpleKey cs
    match skipSpaces rest with
    | '.' :: rest =>
      let (path, rest) ← dottedKey count (skipSpaces rest)
      some (key :: path, rest)
    | rest => some ([key], rest)

/-- The most parts of a key. -/
def maxParts : Nat := 80

/-- A key. -/
def key : Scan (List String) := dottedKey maxParts

/-! ### Numbers and dates -/

/-- Digits with single underscores between them, without the underscores. -/
def spacedDigits? (isDigit : Char → Bool) (cs : List Char) : Option (List Char) :=
  let isSpaced := fun
    | (a, b) => if a = '_' then isDigit b else isDigit a && (isDigit b || b = '_')
  match cs with
  | [] => none
  | c :: tail =>
    if isDigit c && (cs.zip tail).all isSpaced && cs.getLast? ≠ some '_' then
      some (cs.filter (· ≠ '_'))
    else none

/-- The digits of a decimal number: a zero in front stands alone. -/
def decimalDigits? (cs : List Char) : Option (List Char) := do
  let ds ← spacedDigits? Char.isDigit cs
  if ds.head? = some '0' && ds.length ≠ 1 then none else some ds

/-- A whole number behind the marker of its radix. -/
def ofRadix? (radix : Nat) (cs : List Char) : Option Nat := do
  Radix.natural? radix (← spacedDigits? (Radix.isDigit radix) cs)

/-- A whole number; it must fit 64 bits with a sign. -/
def integer? (cs : List Char) : Option Int := do
  let n : Int ← match cs with
    | '0' :: 'x' :: ds => (ofRadix? 16 ds).map Int.ofNat
    | '0' :: 'o' :: ds => (ofRadix? 8 ds).map Int.ofNat
    | '0' :: 'b' :: ds => (ofRadix? 2 ds).map Int.ofNat
    | cs => do
      let (negative, ds) := Decimal.scanSign cs
      let n := Decimal.ofDigits (← decimalDigits? ds)
      pure (if negative then -(n : Int) else n)
  if Integer.fits64 n then some n else none

/-- A number with a point or an exponent, or the name of infinity or of not-a-number. -/
def number? (cs : List Char) : Option Binary64 :=
  let (negative, cs) := Decimal.scanSign cs
  if cs = "inf".toList then some (.infinity negative)
  else if cs = "nan".toList then some .nan
  else do
    let (mantissa, exponent?) := match cs.span fun c => c ≠ 'e' && c ≠ 'E' with
      | (mantissa, _ :: exponent) => (mantissa, some exponent)
      | (mantissa, []) => (mantissa, none)
    let (whole, fraction?) := match mantissa.span (· ≠ '.') with
      | (whole, _ :: fraction) => (whole, some fraction)
      | (whole, []) => (whole, none)
    if exponent?.isNone && fraction?.isNone then none
    else
      let whole ← decimalDigits? whole
      let fraction ← match fraction? with
        | some ds => spacedDigits? Char.isDigit ds
        | none => some []
      let exponent : Int ← match exponent? with
        | some cs => do
          let (negative, ds) := Decimal.scanSign cs
          let n := Decimal.ofDigits (← spacedDigits? Char.isDigit ds)
          pure (if negative then -(n : Int) else n)
        | none => some 0
      let x := Decimal.toBinary64
        ⟨negative, Decimal.ofDigits (whole ++ fraction), exponent - fraction.length⟩
      if x.isFinite then some x else none

/-- A date as text. -/
def date : Scan (List Char) := fun cs => do
  let (year, cs) ← Timestamp.number 4 4 cs
  let ((), cs) ← Timestamp.char '-' cs
  let (month, cs) ← Timestamp.number 2 2 cs
  let ((), cs) ← Timestamp.char '-' cs
  let (day, cs) ← Timestamp.number 2 2 cs
  let d ← Date.ofCivil? year month day
  some (Instant.padded 4 year ++ '-' :: (Instant.padded 2 d.month ++ '-' :: Instant.padded 2 d.day), cs)

/-- The digits of a fraction of a second, without zeros at its end that another digit precedes. -/
def fractionDigits (nano : Nat) : List Char :=
  match Instant.padded 9 nano with
  | [] => []
  | d :: ds => d :: (ds.reverse.dropWhile (· = '0')).reverse

/-- A time of day as text; the seconds may be missing. -/
def time : Scan (List Char) := fun cs => do
  let (hour, cs) ← Timestamp.number 2 2 cs
  let ((), cs) ← Timestamp.char ':' cs
  let (minute, cs) ← Timestamp.number 2 2 cs
  let (seconds, cs) ← match cs with
    | ':' :: cs => do
      let (second, rest) ← Timestamp.number 2 2 cs
      let (nano, rest') ← Timestamp.fraction rest
      if 60 < second then none
      else
        let tail := if rest.head? = some '.' then '.' :: fractionDigits nano else []
        some (':' :: (Instant.padded 2 second ++ tail), rest')
    | cs => some ([], cs)
  if 24 ≤ hour ∨ 60 ≤ minute then none
  else some (Instant.padded 2 hour ++ ':' :: (Instant.padded 2 minute ++ seconds), cs)

/-- An offset from UTC as text. -/
def offset : Scan (List Char) := fun cs =>
  match cs with
  | 'Z' :: cs | 'z' :: cs => some (['Z'], cs)
  | '−' :: _ => none
  | cs => do
    let (minutes, cs) ← Timestamp.offset (Timestamp.char ':') cs
    if 1440 ≤ minutes.natAbs then none
    else
      let clock := Instant.padded 2 (minutes.natAbs / 60) ++ ':' :: Instant.padded 2 (minutes.natAbs % 60)
      some ((if minutes < 0 then '-' else '+') :: clock, cs)

/-- A date, a time of day, or both with or without an offset, as text. -/
def moment? (cs : List Char) : Option (List Char) :=
  match date cs with
  | some (day, []) => some day
  | some (day, mark :: rest) =>
    if mark = 'T' || mark = 't' || mark = ' ' then do
      let (clock, rest) ← time rest
      match rest with
      | [] => some (day ++ 'T' :: clock)
      | rest => match ← offset rest with
        | (shift, []) => some (day ++ 'T' :: (clock ++ shift))
        | _ => none
    else none
  | none => match time cs with
    | some (clock, []) => some clock
    | _ => none

/-- A value that is no string, list or table. -/
def scalar? (cs : List Char) : Option Value :=
  if cs = "true".toList then some (.flag true)
  else if cs = "false".toList then some (.flag false)
  else match integer? cs with
    | some n => some (.integer n)
    | none => match number? cs with
      | some x => some (.number x)
      | none => (moment? cs).map fun text => .text (String.ofList text)

/-- The characters of a scalar at the front.  A space may stand between a date and a time. -/
def scalarChars (cs : List Char) : List Char × List Char :=
  let isInner (c : Char) := c.isAlphanum || "+-_.:".toList.contains c
  let (front, rest) := (cs.takeWhile isInner, cs.dropWhile isInner)
  match (date front).map Prod.snd, rest with
  | some [], ' ' :: c :: tail =>
    if c.isDigit then
      (front ++ ' ' :: (c :: tail).takeWhile isInner, (c :: tail).dropWhile isInner)
    else (front, rest)
  | _, _ => (front, rest)

/-! ### Values -/

/-- How deep lists and tables in braces may be nested. -/
def maxDepth : Nat := 80

/-- A key with the value behind its equals sign, inside braces. -/
def entry (value : Scan Value) : Scan (List String × Value) := fun cs => do
  let (path, rest) ← key cs
  match skipGap false rest with
  | '=' :: rest =>
    let (v, rest) ← value (skipGap false rest)
    some ((path, v), rest)
  | _ => none

/-- The table that keys with values make up. -/
def tableOf? (pairs : List (List String × Value)) : Option Value := do
  let entries ← pairs.foldlM (fun entries (path, v) => assign v path entries) []
  return .table (entryValues entries)

/-- A value with at most `depth` lists and tables inside each other. -/
def value : (depth : Nat) → Scan Value
  | depth, cs => match cs with
    | '"' :: '"' :: '"' :: cs =>
      (longString '"' cs).map fun (s, rest) => (.text (String.ofList s), rest)
    | '\'' :: '\'' :: '\'' :: cs =>
      (longString '\'' cs).map fun (s, rest) => (.text (String.ofList s), rest)
    | '"' :: cs => (shortString '"' cs).map fun (s, rest) => (.text (String.ofList s), rest)
    | '\'' :: cs => (shortString '\'' cs).map fun (s, rest) => (.text (String.ofList s), rest)
    | '[' :: cs => match depth with
      | 0 => none
      | depth + 1 => do
        let (items, rest) ← listed (skipGap false) ']' (value depth) cs
        some (.list items, rest)
    | '\x7b' :: cs => match depth with
      | 0 => none
      | depth + 1 => do
        let (pairs, rest) ← listed (skipGap false) '\x7d' (entry (value depth)) cs
        some (← tableOf? pairs, rest)
    | cs => do
      let (front, rest) := scalarChars cs
      some (← scalar? front, rest)

/-! ### Documents -/

/-- A document under construction: the tree, and the path of the header that holds. -/
structure Draft where
  entries : Entries
  path : List String

/-- One line, which is a header, a key with its value, or nothing. -/
def line? (draft : Draft) (cs : List Char) : Option (Draft × List Char) :=
  match skipSpaces cs with
  | '[' :: '[' :: cs => do
    let (path, rest) ← key (skipSpaces cs)
    match rest with
    | ']' :: ']' :: rest => some (⟨← openItem path draft.entries, path⟩, ← lineEnd? rest)
    | _ => none
  | '[' :: cs => do
    let (path, rest) ← key (skipSpaces cs)
    match rest with
    | ']' :: rest => some (⟨← openTable path draft.entries, path⟩, ← lineEnd? rest)
    | _ => none
  | cs => match lineEnd? cs with
    | some rest => some (draft, rest)
    | none => do
      let (path, rest) ← key cs
      match rest with
      | '=' :: rest =>
        let (v, rest) ← value maxDepth (skipSpaces rest)
        let entries ← changeAt (assign v path) draft.path draft.entries
        some ({ draft with entries }, ← lineEnd? rest)
      | _ => none

/-- The document behind some lines. -/
def linesFrom : (fuel : Nat) → Draft → List Char → Option Entries
  | _, draft, [] => some draft.entries
  | 0, _, _ => none
  | fuel + 1, draft, cs => do
    let (draft, rest) ← line? draft cs
    linesFrom fuel draft rest

/-- The entries of a document.  A mark of byte order in front is skipped. -/
def entries? (document : String) : Option (List (String × Value)) :=
  let cs := match document.toList with
    | '\uFEFF' :: cs => cs
    | cs => cs
  (linesFrom cs.length ⟨[], []⟩ cs).map entryValues

end ProductSegments.Settings.Toml
