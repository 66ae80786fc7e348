import ProductSegments.Number.Radix
import ProductSegments.Settings.Value
import ProductSegments.Text.Scan

/-!
# Scalars of YAML documents

A scalar is a text, which is plain, in quotes or in a block of lines.  A line break inside the first two
is worth a space, and one more line break is worth a line break.  Plain texts may spell other values.

## Main definitions

* `Settings.Yaml.plain` — plain texts; `Settings.Yaml.ofPlain?` — the value that one spells.
* `Settings.Yaml.single`, `Settings.Yaml.double` — texts in quotes.
* `Settings.Yaml.blockText` — the text of a block of lines.
-/

namespace ProductSegments.Settings.Yaml

open Text (Scan)

/-- The character is a blank inside a line. -/
def isSpace (c : Char) : Bool := c = ' ' || c = '\t'

/-- A blank, a line break or the end follows. -/
def isApart : List Char → Bool
  | [] => true
  | c :: _ => isSpace c || c = '\n'

/-- The character is a mark of lists and tables in brackets. -/
def isFlowMark (c : Char) : Bool := ",[]\x7b\x7d".toList.contains c

/-! ### Values -/

/-- The value that a plain text spells.  Infinity and not-a-number have names, but are no settings. -/
def ofPlain? (cs : List Char) : Option Value :=
  let whole? : Option Int := match cs with
    | '0' :: 'x' :: ds => (Radix.natural? 16 ds).map Int.ofNat
    | '0' :: 'o' :: ds => (Radix.natural? 8 ds).map Int.ofNat
    | cs => Value.integer64? (String.ofList cs)
  match whole?.filter Integer.fits64 with
  | some n => some (.integer n)
  | none =>
    let unsigned := (Decimal.scanSign cs).2
    if cs = "~".toList || cs = "null".toList then some .nothing
    else if cs = "true".toList then some (.flag true)
    else if cs = "false".toList then some (.flag false)
    else if [".inf", ".Inf", ".INF"].any fun name => unsigned = name.toList then none
    else if [".nan", ".NaN", ".NAN"].any fun name => cs = name.toList then none
    else match Decimal.ofChars? cs with
      | some d => some (.number d.toBinary64)
      | none => some (.text (String.ofList cs))

/-! ### Plain texts -/

/-- What has been left out between two characters of a text. -/
inductive Gap where
  | blanks (cs : List Char)
  /-- A line break, and `more` behind it; the first one does not count if it is escaped. -/
  | breaks (isEscaped : Bool) (more : Nat)
  deriving DecidableEq, Repr

/-- What a gap is worth. -/
def Gap.text : Gap → List Char
  | blanks cs => cs
  | breaks isEscaped 0 => if isEscaped then [] else [' ']
  | breaks _ more => List.replicate more '\n'

/-- The gap and a blank or a line break behind it. -/
def Gap.add (c : Char) : Gap → Gap
  | blanks cs => if c = '\n' then breaks false 0 else blanks (cs ++ [c])
  | breaks isEscaped more => breaks isEscaped (if c = '\n' then more + 1 else more)

/-- The marker of the begin or the end of a document stands here, at the begin of a line. -/
def isMarker (cs : List Char) : Bool :=
  ("---".toList.isPrefixOf cs || "...".toList.isPrefixOf cs) && isApart (cs.drop 3)

/-- A plain text may begin here. -/
def beginsPlain (inFlow : Bool) : List Char → Bool
  | [] => false
  | c :: cs =>
    if c = '-' || c = '?' || c = ':' then
      !isApart cs && !(inFlow && cs.head?.any isFlowMark)
    else !isSpace c && c ≠ '\n' && !("#&*!|>'\"%@\x60".toList.contains c) && !isFlowMark c

/-- The rest of a plain text behind a gap.  A line goes on with the text if it has `least` columns of
blanks in front; `column` is where the first character stands. -/
def plainTail (inFlow : Bool) (least : Nat) (gap : Gap) (column : Nat) (cs : List Char) :
    List Char × List Char :=
  match cs with
  | [] => ([], [])
  | c :: rest =>
    let isNew := match gap with
      | .breaks _ _ => true
      | .blanks _ => false
    let isClosed :=
      (c = ':' && (isApart rest || (inFlow && rest.head?.any isFlowMark))) ||
      (inFlow && isFlowMark c) ||
      (c = '#' && gap ≠ .blanks []) ||
      (isNew && (column < least || (column = 0 && isMarker cs)))
    if isSpace c || c = '\n' then
      match plainTail inFlow least (gap.add c) (if c = '\n' then 0 else column + 1) rest with
      | ([], _) => ([], cs)
      | found => found
    else if isClosed then ([], cs)
    else
      let (text, rest) := plainTail inFlow least (.blanks []) (column + 1) rest
      (gap.text ++ c :: text, rest)

/-- A plain text; lines with less than `least` columns of blanks in front do not go on with it. -/
def plain (inFlow : Bool) (least column : Nat) : Scan (List Char) := fun cs =>
  if beginsPlain inFlow cs then some (plainTail inFlow least (.blanks []) column cs) else none

/-! ### Texts in quotes -/

/-- A text in single quotes behind the first one.  Two quotes stand for one. -/
def singleTail (gap : Gap) : Scan (List Char)
  | [] => none
  | '\'' :: '\'' :: cs => do
    let (text, rest) ← singleTail (.blanks []) cs
    some (gap.text ++ '\'' :: text, rest)
  | c :: cs =>
    if c = '\'' then some (gap.text, cs)
    else if isSpace c || c = '\n' then singleTail (gap.add c) cs
    else do
      let (text, rest) ← singleTail (.blanks []) cs
      some (gap.text ++ c :: text, rest)

/-- A text in single quotes behind the first one. -/
def single : Scan (List Char) := singleTail (.blanks [])

/-- The character that a letter behind a backslash stands for. -/
def escapeLetter? : Char → Option Char
  | '0' => some '\x00'
  | 'a' => some '\x07'
  | 'b' => some '\x08'
  | 't' | '\t' => some '\t'
  | 'n' => some '\n'
  | 'v' => some '\x0b'
  | 'f' => some '\x0c'
  | 'r' => some '\r'
  | 'e' => some '\x1b'
  | ' ' => some ' '
  | '"' => some '"'
  | '/' => some '/'
  | '\\' => some '\\'
  | 'N' => some '\u0085'
  | '_' => some '\u00A0'
  | 'L' => some '\u2028'
  | 'P' => some '\u2029'
  | _ => none

/-- How many hexadecimal digits follow a letter behind a backslash. -/
def escapeDigits? : Char → Option Nat
  | 'x' => some 2
  | 'u' => some 4
  | 'U' => some 8
  | _ => none

/-- The character that stands escaped behind a backslash. -/
def escape : Scan Char
  | [] => none
  | c :: cs => match escapeDigits? c with
    | some count =>
      if cs.length < count then none
      else (Radix.character? (cs.take count)).map fun c => (c, cs.drop count)
    | none => (escapeLetter? c).map fun c => (c, cs)

/-- A text in double quotes behind the first one, of at most `count` characters. -/
def doubleTail : (count : Nat) → Gap → Scan (List Char)
  | 0, _, _ => none
  | _, _, [] => none
  | count + 1, gap, c :: cs =>
    if c = '"' then some (gap.text, cs)
    else if c = '\\' && cs.head? = some '\n' then do
      let (text, rest) ← doubleTail count (.breaks true 0) (cs.drop 1)
      some (gap.text ++ text, rest)
    else if isSpace c || c = '\n' then doubleTail count (gap.add c) cs
    else do
      let (c, cs) ← if c = '\\' then escape cs else some (c, cs)
      let (text, rest) ← doubleTail count (.blanks []) cs
      some (gap.text ++ c :: text, rest)

/-- A text in double quotes behind the first one. -/
def double : Scan (List Char) := fun cs => doubleTail (cs.length + 1) (.blanks []) cs

/-! ### Blocks of lines -/

/-- What becomes of the line breaks at the end of a block. -/
inductive Chomping where
  | strip
  | clip
  | keep
  deriving DecidableEq, Repr

/-- How the lines of a block make up a text. -/
structure BlockStyle where
  /-- Line breaks between lines that begin with no blank are worth spaces. -/
  isFolded : Bool
  chomping : Chomping
  /-- How far the lines are indented, if it is said. -/
  indent? : Option Nat
  deriving DecidableEq, Repr

/-- The style with what a character behind its first one says. -/
def BlockStyle.add (style : BlockStyle) (c : Char) : Option BlockStyle :=
  if c = '-' && style.chomping = .clip then some { style with chomping := .strip }
  else if c = '+' && style.chomping = .clip then some { style with chomping := .keep }
  else if '1' ≤ c && c ≤ '9' && style.indent?.isNone then
    some { style with indent? := some (c.toNat - '0'.toNat) }
  else none

/-- The lines behind one that begins with a blank or not and that `breaks` line breaks follow. -/
def linesTail (isFolded : Bool) (breaks : Nat) (afterBlank : Bool) : List (List Char) → List Char
  | [] => []
  | line :: lines =>
    if line.isEmpty then linesTail isFolded (breaks + 1) afterBlank lines
    else
      let isBlank := line.head?.any isSpace
      let gap :=
        if !isFolded || afterBlank || isBlank then List.replicate breaks '\n'
        else if breaks = 1 then [' ']
        else List.replicate (breaks - 1) '\n'
      gap ++ line ++ linesTail isFolded 1 isBlank lines

/-- The text of the lines of a block. -/
def blockText (style : BlockStyle) (lines : List (List Char)) : List Char :=
  let empty := (lines.reverse.takeWhile List.isEmpty).length
  let text := linesTail style.isFolded 0 true (lines.take (lines.length - empty))
  match style.chomping with
  | .strip => text
  | .clip => if text.isEmpty then [] else text ++ ['\n']
  | .keep => if text.isEmpty then List.replicate empty '\n' else text ++ List.replicate (empty + 1) '\n'

end ProductSegments.Settings.Yaml
