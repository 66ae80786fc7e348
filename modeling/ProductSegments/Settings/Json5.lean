import ProductSegments.Number.Radix
import ProductSegments.Settings.Value
import ProductSegments.Text.Alphanumeric
import ProductSegments.Text.Blank
import ProductSegments.Text.Comment
import ProductSegments.Text.Scan

/-!
# JSON5 documents

Settings files may be JSON5 documents: JSON with comments, names without quotes, strings in single
quotes, commas behind last items, and more ways to write numbers.

## Main definitions

* `Settings.Json5.string` — strings; a line may be broken behind a backslash.
* `Settings.Json5.numeral?` — numbers, of which those without point and exponent are whole.
* `Settings.Json5.value` — lists, tables and what is in them.
* `Settings.Json5.entries?` — the entries of a document, unless it is malformed.
-/

namespace ProductSegments.Settings.Json5

open Text (Scan isAlphanumeric isBlank listed)

/-- The character breaks lines. -/
def isBreak (c : Char) : Bool := c = '\n' || c = '\r' || c = '\u2028' || c = '\u2029'

/-- What may stand between the parts of a document. -/
def gaps : Text.GapStyle where
  isBlank c := c = '\uFEFF' || (isBlank c && c ≠ '\u0085')
  endsLine := isBreak
  nests := false

/-! ### Strings -/

/-- The character that a letter behind a backslash stands for; most stand for themselves. -/
def escaped : Char → Char
  | 'b' => '\x08'
  | 'f' => '\x0c'
  | 'n' => '\n'
  | 'r' => '\r'
  | 't' => '\t'
  | 'v' => '\x0b'
  | c => c

/-- The text of code units, where two halves of a surrogate pair make up a character. -/
def joined? : List Nat → Option (List Char)
  | [] => some []
  | n :: ns =>
    if n.isValidChar then (joined? ns).map (.ofNat n :: ·)
    else if 0xDC00 ≤ n then none
    else match ns with
      | low :: ns =>
        if 0xDC00 ≤ low ∧ low < 0xE000 then
          (joined? ns).map (.ofNat (0x10000 + (n - 0xD800) * 0x400 + (low - 0xDC00)) :: ·)
        else none
      | [] => none

/-- The code units of a string up to its second quote. -/
def units (quote : Char) : Scan (List Nat)
  | [] => none
  | '\\' :: '\r' :: '\n' :: cs => units quote cs
  | '\\' :: 'x' :: c₁ :: c₂ :: cs => do
    let n ← Radix.natural? 16 [c₁, c₂]
    let (ns, rest) ← units quote cs
    some (n :: ns, rest)
  | '\\' :: 'u' :: c₁ :: c₂ :: c₃ :: c₄ :: cs => do
    let n ← Radix.natural? 16 [c₁, c₂, c₃, c₄]
    let (ns, rest) ← units quote cs
    some (n :: ns, rest)
  | '\\' :: c :: cs =>
    if isBreak c then units quote cs
    else if c = 'x' || c = 'u' then none
    else if c.isDigit && (c ≠ '0' || (cs.head?.any Char.isDigit)) then none
    else do
      let (ns, rest) ← units quote cs
      some ((if c = '0' then 0 else (escaped c).toNat) :: ns, rest)
  | c :: cs =>
    if c = quote then some ([], cs)
    else if c = '\\' || isBreak c then none
    else do
      let (ns, rest) ← units quote cs
      some (c.toNat :: ns, rest)

/-- A string behind its first quote. -/
def string (quote : Char) : Scan String := fun cs => do
  let (ns, rest) ← units quote cs
  some (String.ofList (← joined? ns), rest)

/-! ### Numbers -/

/-- The value of a numeral behind its sign; a sign may be `+` or `-`, and there may be none. -/
def unsigned? (sign? : Option Char) (cs : List Char) : Option Value :=
  let negative := sign? = some '-'
  match cs with
  | '0' :: marker :: ds =>
    if marker = 'x' || marker = 'X' then do
      let n ← Radix.natural? 16 ds
      if sign?.isNone && n < UInt32.size then some (.integer n) else none
    else if marker.isDigit then none
    else decimal? negative cs
  | cs =>
    if cs = "Infinity".toList then
      if sign? = some '+' then none else some (.number (.infinity negative))
    else if cs = "NaN".toList then if sign? = some '+' then none else some (.number .nan)
    else decimal? negative cs
where
  /-- The value of a decimal numeral, which is whole without a point and an exponent. -/
  decimal? (negative : Bool) (cs : List Char) : Option Value :=
    if !cs.isEmpty && cs.all Char.isDigit then
      let n : Int := if negative then -(Decimal.ofDigits cs : Int) else Decimal.ofDigits cs
      if Integer.fits64 n then some (.integer n) else none
    else match cs, Decimal.ofChars? cs with
      | c :: _, some d =>
        let x := Decimal.toBinary64 { d with negative }
        if (c.isDigit || c = '.') && x.isFinite then some (.number x) else none
      | _, _ => none

/-- The value of a numeral. -/
def numeral? : List Char → Option Value
  | '+' :: cs => unsigned? (some '+') cs
  | '-' :: cs => unsigned? (some '-') cs
  | cs => unsigned? none cs

/-! ### Values -/

/-- The character may stand in a name without quotes. -/
def isNamePart (c : Char) : Bool :=
  isAlphanumeric c || c = '$' || c = '_' || c = '\u200C' || c = '\u200D'

/-- The name of a member. -/
def name : Scan String
  | '"' :: cs => string '"' cs
  | '\'' :: cs => string '\'' cs
  | cs =>
    let letters := cs.takeWhile isNamePart
    if letters.isEmpty || letters.head?.any Char.isDigit then none
    else some (String.ofList letters, cs.drop letters.length)

/-- The name of a member with the value behind its colon. -/
def member (value : Scan Value) : Scan (String × Value) := fun cs => do
  let (key, rest) ← name cs
  match gaps.skip rest with
  | ':' :: rest =>
    let (v, rest) ← value (gaps.skip rest)
    some ((key, v), rest)
  | _ => none

/-- A word or a numeral. -/
def scalar : Scan Value := fun cs =>
  let isInner (c : Char) := c.isAlphanum || c = '+' || c = '-' || c = '.'
  let word := cs.takeWhile isInner
  let value? :=
    if word = "null".toList then some .nothing
    else if word = "true".toList then some (.flag true)
    else if word = "false".toList then some (.flag false)
    else numeral? word
  value?.map fun value => (value, cs.drop word.length)

/-- A value with at most `depth` lists and tables inside each other. -/
def value : (depth : Nat) → Scan Value
  | depth, cs => match cs with
    | '"' :: cs => (string '"' cs).map fun (s, rest) => (.text s, rest)
    | '\'' :: cs => (string '\'' cs).map fun (s, rest) => (.text s, rest)
    | '[' :: cs => match depth with
      | 0 => none
      | depth + 1 => do
        let (items, rest) ← listed gaps.skip ']' (value depth) cs
        some (.list items, rest)
    | '\x7b' :: cs => match depth with
      | 0 => none
      | depth + 1 => do
        let (members, rest) ← listed gaps.skip '\x7d' (member (value depth)) cs
        some (Value.tableOf members, rest)
    | cs => scalar cs

/-- The entries of a document, which has to be a table. -/
def entries? (document : String) : Option (List (String × Value)) := do
  let cs := document.toList
  let (v, rest) ← value cs.length (gaps.skip cs)
  match v, gaps.skip rest with
  | .table entries, [] => some entries
  | _, _ => none

end ProductSegments.Settings.Json5
