import ProductSegments.Settings.Yaml.Scalar

/-!
# YAML documents

Settings files may be YAML documents.  Lists and tables are told by how far their lines are indented,
or stand in brackets.  There are no anchors, no tags, and no keys behind question marks.

## Main definitions

* `Settings.Yaml.Spot` — a place in a document.
* `Settings.Yaml.flow` — values in brackets and what is in them.
* `Settings.Yaml.block` — lists and tables that are indented, and what is in them.
* `Settings.Yaml.entries?` — the entries of a document, unless it is malformed.
-/

namespace ProductSegments.Settings.Yaml

open Text (Scan listed)

/-! ### Leaves -/

/-- A scalar on its own. -/
inductive Leaf where
  | plain (text : List Char)
  | quoted (text : List Char)
  deriving DecidableEq, Repr

/-- The value of a scalar. -/
def Leaf.value? : Leaf → Option Value
  | plain text => ofPlain? text
  | quoted text => some (.text (String.ofList text))

/-- The scalar as a key. -/
def Leaf.key? : Leaf → Option String
  | quoted text => some (String.ofList text)
  | plain text => match ofPlain? text with
    | some (.integer n) => some (toString n)
    | some .nothing => none
    | _ => some (String.ofList text)

/-- A scalar that is no block of lines. -/
def leaf (inFlow : Bool) (least column : Nat) : Scan Leaf
  | '"' :: cs => (double cs).map fun (text, rest) => (.quoted text, rest)
  | '\'' :: cs => (single cs).map fun (text, rest) => (.quoted text, rest)
  | cs => (plain inFlow least column cs).map fun (text, rest) => (.plain text, rest)

/-- The table of some entries, whose keys differ. -/
def table? (entries : List (String × Value)) : Option Value :=
  if (entries.map Prod.fst).Nodup then some (.table entries) else none

/-! ### Brackets -/

/-- The text behind blanks, line breaks and comments. -/
def skipGap : (inComment : Bool) → List Char → List Char
  | _, [] => []
  | inComment, c :: cs =>
    if c = '\n' then skipGap false cs
    else if inComment then skipGap true cs
    else if isSpace c then skipGap false cs
    else if c = '#' then skipGap true cs
    else c :: cs

/-- The text behind a colon that may follow a scalar in brackets. -/
def afterColon? (leaf : Leaf) (cs : List Char) : Option (List Char) :=
  match skipGap false cs, leaf with
  | ':' :: rest, .quoted _ => some rest
  | ':' :: rest, .plain _ =>
    if isApart rest || rest.head?.any isFlowMark then some rest else none
  | _, _ => none

/-- The value behind a colon in brackets, which may be missing. -/
def flowValue (value : Scan Value) : Scan Value := fun cs =>
  match skipGap false cs with
  | c :: rest =>
    if c = ',' || c = ']' || c = '\x7d' then some (.nothing, c :: rest) else value (c :: rest)
  | [] => none

/-- An entry of a table in braces. -/
def flowEntry (value : Scan Value) : Scan (String × Value) := fun cs => do
  let (leaf, rest) ← leaf true 0 1 cs
  let key ← leaf.key?
  match afterColon? leaf rest with
  | some rest => (flowValue value rest).map fun (v, rest) => ((key, v), rest)
  | none => some ((key, .nothing), rest)

/-- An item of a list in brackets, which may be an entry of a table. -/
def flowItem (value : Scan Value) : Scan Value := fun cs =>
  match leaf true 0 1 cs with
  | some (leaf, rest) => match afterColon? leaf rest with
    | some rest => do
      let key ← leaf.key?
      let (v, rest) ← flowValue value rest
      some (.table [(key, v)], rest)
    | none => leaf.value?.map fun v => (v, rest)
  | none => value cs

/-- A value in brackets or between them, with at most `depth` brackets inside each other. -/
def flow : (depth : Nat) → Scan Value
  | depth, cs => match cs with
    | '[' :: cs => match depth with
      | 0 => none
      | depth + 1 => do
        let (items, rest) ← listed (skipGap false) ']' (flowItem (flow depth)) cs
        some (.list items, rest)
    | '\x7b' :: cs => match depth with
      | 0 => none
      | depth + 1 => do
        let (entries, rest) ← listed (skipGap false) '\x7d' (flowEntry (flow depth)) cs
        some (← table? entries, rest)
    | cs => do
      let (leaf, rest) ← leaf true 0 1 cs
      some (← leaf.value?, rest)

/-- How deep brackets may be nested. -/
def maxDepth : Nat := 255

/-! ### Places -/

/-- A place in a document: what follows, and where that is. -/
structure Spot where
  chars : List Char
  line : Nat
  column : Nat
  deriving DecidableEq, Repr

/-- The place behind a character. -/
def Spot.after (c : Char) (spot : Spot) : Spot :=
  if c = '\n' then ⟨spot.chars.drop 1, spot.line + 1, 0⟩
  else ⟨spot.chars.drop 1, spot.line, spot.column + 1⟩

/-- The place behind some characters. -/
def Spot.skip (count : Nat) (spot : Spot) : Spot :=
  (spot.chars.take count).foldl (fun spot c => spot.after c) spot

/-- The place from which `rest` follows. -/
def Spot.skipTo (rest : List Char) (spot : Spot) : Spot :=
  spot.skip (spot.chars.length - rest.length)

/-- The next place that is no blank, no line break and no comment, which has to be behind a blank. -/
def Spot.gap (spot : Spot) : Spot :=
  let cs := spot.chars
  if cs.head? = some '#' && spot.column ≠ 0 then spot else spot.skipTo (skipGap false cs)

/-- The document ends here, or another one begins. -/
def Spot.isEnd (spot : Spot) : Bool := spot.chars.isEmpty || (spot.column = 0 && isMarker spot.chars)

/-- An item of a list begins here. -/
def Spot.isItem (spot : Spot) : Bool :=
  spot.chars.head? = some '-' && isApart (spot.chars.drop 1) && !spot.isEnd

/-- The key that stands here and ends on the line, and the place behind its colon. -/
def Spot.key? (spot : Spot) : Option (String × Spot) := do
  let line := spot.chars.takeWhile (· ≠ '\n')
  let (leaf, rest) ← leaf false 0 1 line
  match rest.dropWhile isSpace with
  | ':' :: rest =>
    if isApart rest then some (← leaf.key?, spot.skip (line.length - rest.length)) else none
  | _ => none

/-! ### Blocks of lines -/

/-- The lines that are indented at least as far as the first one with text, but not less than `least`,
without their blanks in front; and what follows them. -/
def blockLines (least : Nat) (indent? : Option Nat) (cs : List Char) : List (List Char) × List Char :=
  let lines := cs.splitOn '\n'
  let indentOf (line : List Char) := (line.takeWhile (· = ' ')).length
  let isBlank (line : List Char) := line.all (· = ' ')
  let indent := indent?.getD <| match lines.find? (!isBlank ·) with
    | some line => max least (indentOf line)
    | none => least
  let inner := lines.takeWhile fun line => isBlank line || indent ≤ indentOf line
  let rest := lines.drop inner.length
  let texts := inner.map (·.drop indent)
  let endsInside := rest.isEmpty && texts.getLast? = some []
  (if endsInside then texts.dropLast else texts, ['\n'].intercalate rest)

/-- A block of lines behind its first character.  The lines have at least `least` blanks in front. -/
def blockScalar (isFolded : Bool) (least : Nat) : Scan Value := fun cs => do
  let line := cs.takeWhile (· ≠ '\n')
  let marks := line.takeWhile fun c => !isSpace c
  let style ← marks.foldlM BlockStyle.add ⟨isFolded, .clip, none⟩
  match (line.drop marks.length).dropWhile isSpace with
  | [] | '#' :: _ =>
    let indent? := style.indent?.map (· + (least - 1))
    let (lines, rest) := blockLines (max least 1) indent? (cs.drop (line.length + 1))
    some (.text (String.ofList (blockText style lines)), rest)
  | _ => none

/-! ### Lists and tables -/

/-- The items of a list in a column behind those read so far, which are reversed; `item` reads one behind
its dash. -/
def itemsFrom (item : Spot → Option (Value × Spot)) (column : Nat) :
    (count : Nat) → (read : List Value) → Spot → Option (Value × Spot)
  | 0, _, _ => none
  | count + 1, read, spot =>
    let next := spot.gap
    if next.isItem && next.column = column then do
      let (v, rest) ← item (next.skip 1)
      itemsFrom item column count (v :: read) rest
    else some (.list read.reverse, spot)

/-- The entries of a table in a column behind those read so far, which are reversed; `value` reads what
stands behind a colon. -/
def entriesFrom (value : Spot → Option (Value × Spot)) (column : Nat) :
    (count : Nat) → (read : List (String × Value)) → Spot → Option (Value × Spot)
  | 0, _, _ => none
  | count + 1, read, spot =>
    let next := spot.gap
    if next.isEnd || next.column ≠ column then do some (← table? read.reverse, spot)
    else do
      let (key, rest) ← next.key?
      let (v, rest) ← value rest
      entriesFrom value column count ((key, v) :: read) rest

/-- Where a value may stand. -/
structure Room where
  /-- The first column that belongs to it. -/
  least : Nat
  /-- A list or a table may begin on the line. -/
  opens : Bool
  /-- The items of a list may stand one column to the left. -/
  hangs : Bool
  deriving DecidableEq, Repr

/-- Behind the dash of an item in a column. -/
def Room.ofItem (column : Nat) : Room := ⟨column + 1, true, false⟩

/-- Behind a key in a column. -/
def Room.ofEntry (column : Nat) : Room := ⟨column + 1, false, true⟩

/-- The value stands too far to the left to be in the room. -/
def Room.excludes (room : Room) (spot : Spot) : Bool :=
  spot.isEnd ||
    (spot.column < room.least && !(room.hangs && spot.isItem && spot.column + 1 = room.least))

/-- A value in a room.  Inside it there are at most `depth` values. -/
def block : (depth : Nat) → Room → Spot → Option (Value × Spot)
  | 0, _, _ => none
  | depth + 1, room, spot =>
    let next := spot.gap
    let opens := room.opens || spot.line < next.line
    let count := next.chars.length + 1
    if room.excludes next then some (.nothing, spot)
    else if next.isItem then
      if opens then itemsFrom (block depth (.ofItem next.column)) next.column count [] next else none
    else if next.key?.isSome then
      if opens then entriesFrom (block depth (.ofEntry next.column)) next.column count [] next
      else none
    else do
      let (v, rest) ← match next.chars with
        | '|' :: cs => blockScalar false room.least cs
        | '>' :: cs => blockScalar true room.least cs
        | c :: cs =>
          if c = '[' || c = '\x7b' then flow maxDepth (c :: cs)
          else do
            let (leaf, rest) ← leaf false room.least next.column (c :: cs)
            some (← leaf.value?, rest)
        | [] => none
      some (v, next.skipTo rest)

/-! ### Documents -/

/-- The text with line breaks of one kind. -/
def withPlainBreaks : List Char → List Char
  | '\r' :: '\n' :: cs => '\n' :: withPlainBreaks cs
  | '\r' :: cs => '\n' :: withPlainBreaks cs
  | c :: cs => c :: withPlainBreaks cs
  | [] => []

/-- The document behind the marker that may stand in front of it. -/
def body (spot : Spot) : Spot × Room :=
  let first := spot.gap
  if first.column = 0 && "---".toList.isPrefixOf first.chars && isMarker first.chars then
    (first.skip 3, ⟨0, false, false⟩)
  else (first, ⟨0, true, false⟩)

/-- The entries of a document, which has to be a table.  A document of blanks has none. -/
def entries? (document : String) : Option (List (String × Value)) :=
  let cs := withPlainBreaks document.toList
  let start : Spot := ⟨cs, 0, 0⟩
  if start.gap.chars.isEmpty then some []
  else
    let (spot, room) := body start
    match block (cs.length + 1) room spot with
    | some (.table entries, rest) =>
      let last := rest.gap
      let last := if last.column = 0 && "...".toList.isPrefixOf last.chars && isMarker last.chars
        then (last.skip 3).gap else last
      if last.chars.isEmpty then some entries else none
    | _ => none

end ProductSegments.Settings.Yaml
