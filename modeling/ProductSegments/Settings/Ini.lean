import ProductSegments.Number.Radix
import ProductSegments.Settings.Value
import ProductSegments.Text.Blank

/-!
# INI documents

Settings files may be INI documents: keys with values, under the headers of sections.  All values are
texts.  Of several sections of one name the last one counts.

## Main definitions

* `Settings.Ini.textUntil` — a text in which a backslash escapes the character behind it.
* `Settings.Ini.Item` — a header, or a key with its value; `Settings.Ini.items?` — those of a document.
* `Settings.Ini.entries?` — the entries of a document, unless it is malformed.
-/

namespace ProductSegments.Settings.Ini

open Text (isBlank trim trimEnd)

/-! ### Texts -/

/-- The character that a letter behind a backslash stands for; most stand for themselves. -/
def escaped : Char → Char
  | '0' => '\x00'
  | 'a' => '\x07'
  | 'b' => '\x08'
  | 't' => '\t'
  | 'r' => '\r'
  | 'n' => '\n'
  | c => c

/-- The text in front of a character that ends it, and the characters from there on; `mayRunOut` says
that the document may end before.  A backslash joins two lines, or escapes a character. -/
def textUntil (isEnd : Char → Bool) (mayRunOut : Bool) :
    List Char → Option (List Char × List Char)
  | [] => if mayRunOut then some ([], []) else none
  | '\\' :: '\n' :: cs => textUntil isEnd mayRunOut cs
  | '\\' :: 'x' :: c₁ :: c₂ :: c₃ :: c₄ :: cs => do
    let c ← Radix.character? [c₁, c₂, c₃, c₄]
    let (text, rest) ← textUntil isEnd mayRunOut cs
    some (c :: text, rest)
  | '\\' :: c :: cs => do
    let (text, rest) ← textUntil isEnd mayRunOut cs
    if c = 'x' then none else some (escaped c :: text, rest)
  | c :: cs =>
    if isEnd c then some ([], c :: cs)
    else if c = '\\' then none
    else do
      let (text, rest) ← textUntil isEnd mayRunOut cs
      some (c :: text, rest)

/-- The characters break lines. -/
def isBreak (c : Char) : Bool := c = '\n' || c = '\r'

/-- The parts of a value in quotes, and then what is left of the line without the blanks at its end;
`isFirst` says that nothing stands before. -/
def valueFrom : (fuel : Nat) → (isFirst : Bool) → List Char → Option (List Char × List Char)
  | 0, _, _ => none
  | fuel + 1, isFirst, cs =>
    match cs with
    | '"' :: cs => quoted fuel '"' cs
    | '\'' :: cs => quoted fuel '\'' cs
    | cs => do
      let (text, rest) ← textUntil isBreak true cs
      some (if isFirst then trim text else trimEnd text, rest)
where
  /-- A part of a value behind its first quote, and the parts behind it. -/
  quoted (fuel : Nat) (quote : Char) (cs : List Char) : Option (List Char × List Char) := do
    let (part, rest) ← textUntil (· = quote) false cs
    let (others, rest) ← valueFrom fuel false (rest.drop 1)
    some (part ++ others, rest)

/-- The value behind an equals sign. -/
def value? (cs : List Char) : Option (List Char × List Char) :=
  let cs := cs.dropWhile fun c => isBlank c && !isBreak c
  valueFrom (cs.length + 1) true cs

/-! ### Documents -/

/-- What a document says at one place. -/
inductive Item where
  | header (name : String)
  | entry (key value : String)
  deriving DecidableEq, Repr

/-- The characters behind blanks, and whether they begin a line. -/
def skipBlanks (begins : Bool) : List Char → Bool × List Char
  | c :: cs => if isBlank c then skipBlanks (c = '\n') cs else (begins, c :: cs)
  | [] => (begins, [])

/-- The header or the entry at the front, and what follows. -/
def item? : List Char → Option (Item × List Char)
  | '[' :: cs => do
    let (name, rest) ← textUntil (· = ']') false cs
    some (.header (String.ofList (trim name)), rest.drop 1)
  | cs => do
    let (key, rest) ← textUntil (fun c => c = '=' || c = ':') false cs
    let (value, rest) ← value? (rest.drop 1)
    if (trim key).isEmpty then none
    else some (.entry (String.ofList (trim key)) (String.ofList value), rest)

/-- The items from a place on.  Comments take up whole lines. -/
def itemsFrom : (fuel : Nat) → (begins : Bool) → List Char → Option (List Item)
  | 0, _, _ => none
  | fuel + 1, begins, cs => match skipBlanks begins cs with
    | (_, []) => some []
    | (begins, c :: cs) =>
      if c = ';' || c = '#' then
        if begins then itemsFrom fuel true (cs.dropWhile (· ≠ '\n')) else none
      else do
        let (item, rest) ← item? (c :: cs)
        return item :: (← itemsFrom fuel false rest)

/-- The items of a document. -/
def items? (document : String) : Option (List Item) :=
  let cs := document.toList
  itemsFrom (cs.length + 1) true cs

/-- What has been read: the entries so far, and the section that is open. -/
structure Draft where
  entries : List (String × Value)
  opened? : Option (String × List (String × Value))

/-- The entries with the open section put in. -/
def Draft.close (draft : Draft) : List (String × Value) :=
  match draft.opened? with
  | some (name, inner) => Value.put name (.table inner) draft.entries
  | none => draft.entries

/-- An item more. -/
def Draft.add (draft : Draft) : Item → Draft
  | .header name => ⟨draft.close, some (name, [])⟩
  | .entry key value => match draft.opened? with
    | some (name, inner) =>
      { draft with opened? := some (name, Value.put key (.text value) inner) }
    | none => { draft with entries := Value.put key (.text value) draft.entries }

/-- The entries of a document. -/
def entries? (document : String) : Option (List (String × Value)) :=
  (items? document).map fun items => (items.foldl Draft.add ⟨[], none⟩).close

end ProductSegments.Settings.Ini
