import ProductSegments.Text.Alphanumeric
import ProductSegments.Text.Blank

/-!
# Environment files

A file of lines `KEY=value` adds variables to the environment.  A variable that is set already keeps
its value, and the reading stops in front of the first line that is malformed.

## Main definitions

* `Settings.Environment` — the variables that are set.
* `Settings.DotEnv.lines` — the logical lines of a file, with line breaks inside quotes.
* `Settings.DotEnv.value?` — the value that stands behind the equals sign.
* `Settings.DotEnv.load` — an environment with the variables of a file added.
-/

namespace ProductSegments.Settings

/-- The variables that are set. -/
abbrev Environment := List (String × String)

/-- The value of a variable. -/
def Environment.get? (env : Environment) (name : String) : Option String :=
  (env.find? fun (n, _) => n = name).map Prod.snd

namespace DotEnv

open Text (isAlphanumeric isBlank trimStart trimEnd)

/-! ### Logical lines -/

/-- Where a line stands between two characters. -/
inductive Place where
  /-- Outside quotes. -/
  | plain
  /-- Outside quotes, behind a blank. -/
  | blank
  /-- Behind a backslash outside quotes. -/
  | escape
  /-- Inside quotes of the given kind. -/
  | quoted (quote : Char)
  /-- Behind a backslash inside quotes. -/
  | quotedEscape (quote : Char)
  deriving DecidableEq, Repr

/-- The place behind a character. -/
def Place.after (c : Char) : Place → Place
  | escape => plain
  | quotedEscape quote => quoted quote
  | quoted quote => if c = '\\' then quotedEscape quote else if c = quote then plain else quoted quote
  | plain | blank =>
    if c = '\\' then escape
    else if c = '"' || c = '\'' then quoted c
    else plain

/-- The place behind a character, where a blank counts only directly behind plain text. -/
def Place.next (c : Char) (p : Place) : Place :=
  if p = plain && isBlank c && c ≠ '\n' && c ≠ '\r' then blank else p.after c

/-- A physical line with its line break, and the lines behind it. -/
def physicalLine (cs : List Char) : List Char × List Char :=
  match cs.span (· ≠ '\n') with
  | (line, '\n' :: rest) => (line ++ ['\n'], rest)
  | (line, rest) => (line, rest)

/-- The line without its line break. -/
def withoutBreak (line : List Char) : List Char :=
  match line.reverse with
  | '\n' :: '\r' :: front => front.reverse
  | '\n' :: front => front.reverse
  | _ => line

/-- The place behind a physical line, or the characters in front of a comment. -/
def scanLine (place : Place) (before : List Char) : List Char → Place ⊕ List Char
  | [] => .inl place
  | c :: cs =>
    if place = .blank && c = '#' then .inr before.reverse
    else scanLine (place.next c) (c :: before) cs

/-- The logical lines of a file; `none` stands for one that never ends.  A line that ends inside
quotes, behind a backslash or behind a blank goes on in the next one. -/
def linesFrom : (fuel : Nat) → (held : List Char) → Place → List Char → List (Option (List Char))
  | 0, _, _, _ => []
  | _ + 1, _, place, [] => if place = .plain then [] else [none]
  | fuel + 1, held, place, cs =>
    let (line, rest) := physicalLine cs
    let whole := held ++ line
    if (trimStart whole).head? = some '#' then some [] :: linesFrom fuel [] .plain rest
    else match scanLine place [] line with
      | .inr kept => some (held ++ kept) :: linesFrom fuel [] .plain rest
      | .inl .plain => some (withoutBreak whole) :: linesFrom fuel [] .plain rest
      | .inl place => linesFrom fuel whole place rest

/-- The logical lines of a file, each of which takes up a character. -/
def lines (cs : List Char) : List (Option (List Char)) := linesFrom (cs.length + 1) [] .plain cs

/-! ### Values -/

/-- How far a value has been read. -/
inductive Mode where
  | plain
  | single
  | double
  /-- Behind a backslash, inside double quotes or not. -/
  | escape (isQuoted : Bool)
  /-- Inside the name of a variable, with or without braces, inside double quotes or not. -/
  | name (isBraced isQuoted : Bool) (letters : List Char)
  /-- Only blanks and a comment may follow. -/
  | ended
  /-- Inside a comment. -/
  | comment
  deriving DecidableEq, Repr

/-- The mode outside the names of variables. -/
def Mode.around (isQuoted : Bool) : Mode := if isQuoted then double else plain

/-- The mode behind a character, and the characters that it adds to the value, where `get` gives the
values of variables; `none` if the character cannot stand there. -/
def Mode.step (get : String → String) (c : Char) : Mode → Option (Mode × List Char)
  | ended =>
    if c = ' ' || c = '\t' then some (ended, [])
    else if c = '#' then some (comment, [])
    else none
  | comment => some (comment, [])
  | escape isQuoted =>
    if c = '\\' || c = '\'' || c = '"' || c = '$' || c = ' ' then some (around isQuoted, [c])
    else if c = 'n' then some (around isQuoted, ['\n'])
    else none
  | single => some (if c = '\'' then (plain, []) else (single, [c]))
  | name isBraced isQuoted letters =>
    if isAlphanumeric c then some (Mode.name isBraced isQuoted (letters ++ [c]), [])
    else if isBraced then
      if c = '\x7d' then some (around isQuoted, (get (String.ofList letters)).toList)
      else some (Mode.name true isQuoted (letters ++ [c]), [])
    else if c = '\x7b' && letters.isEmpty then some (Mode.name true isQuoted [], [])
    else
      let value := (get (String.ofList letters)).toList
      if c = '$' then some (Mode.name false isQuoted [], value)
      else some (around isQuoted, value ++ [c])
  | double =>
    if c = '$' then some (Mode.name false true [], [])
    else if c = '"' then some (plain, [])
    else if c = '\\' then some (escape true, [])
    else some (double, [c])
  | plain =>
    if c = '$' then some (Mode.name false false [], [])
    else if c = '\'' then some (single, [])
    else if c = '"' then some (double, [])
    else if c = '\\' then some (escape false, [])
    else if c = ' ' || c = '\t' then some (ended, [])
    else some (plain, [c])

/-- The value spelled by the characters behind those read so far, which are reversed. -/
def valueFrom (get : String → String) (read : List Char) : Mode → List Char → Option String
  | mode, [] => match mode with
    | .single | .double | .escape true | .name true _ _ | .name false true _ => none
    | .name false false letters => some (String.ofList read.reverse ++ get (String.ofList letters))
    | .plain | .ended | .comment | .escape false => some (String.ofList read.reverse)
  | mode, c :: cs => match mode.step get c with
    | some (mode, more) => valueFrom get (more.reverse ++ read) mode cs
    | none => none

/-- The value spelled behind the equals sign. -/
def value? (get : String → String) (cs : List Char) : Option String := valueFrom get [] .plain cs

/-! ### Whole files -/

/-- The name of a variable at the front, and what follows it and any blanks. -/
def name? (cs : List Char) : Option (String × List Char) :=
  let isInner (c : Char) := c.isAlphanum || c = '_' || c = '.'
  match cs with
  | c :: _ =>
    if c.isAlpha || c = '_' then
      some (String.ofList (cs.takeWhile isInner), trimStart (cs.dropWhile isInner))
    else none
  | [] => none

/-- The name of a variable, and what follows its equals sign.  The word `export` may stand in front of
the name, and may also be a name itself. -/
def assignment? (cs : List Char) : Option (String × List Char) := do
  let (name, rest) ← name? cs
  match rest with
  | '=' :: rest => some (name, trimStart rest)
  | _ =>
    if name = "export" then
      match ← name? rest with
      | (name, '=' :: rest) => some (name, trimStart rest)
      | _ => none
    else none

/-- What a logical line says: nothing, or the value of a variable. -/
def entry? (get : String → String) (line : List Char) : Option (Option (String × String)) :=
  match trimStart (trimEnd line) with
  | [] | '#' :: _ => some none
  | cs => do
    let (name, rest) ← assignment? cs
    match rest with
    | [] | '#' :: _ => some (some (name, ""))
    | rest => some (some (name, ← value? get rest))

/-- Add the variables of logical lines; `read` are the ones read so far, the latest first. -/
def loadLines (env : Environment) (read : Environment) : List (Option (List Char)) → Environment
  | [] | none :: _ => env
  | some line :: rest =>
    let get (name : String) := (env.get? name <|> Environment.get? read name).getD ""
    match entry? get line with
    | none => env
    | some none => loadLines env read rest
    | some (some (name, value)) =>
      let env' := if (env.get? name).isSome then env else env ++ [(name, value)]
      loadLines env' ((name, value) :: read) rest

/-- The characters of a file, without a mark of byte order in front. -/
def chars (file : String) : List Char :=
  match file.toList with
  | '\uFEFF' :: cs => cs
  | cs => cs

/-- An environment with the variables of a file added. -/
def load (env : Environment) (file : String) : Environment := loadLines env [] (lines (chars file))

end DotEnv

end ProductSegments.Settings
