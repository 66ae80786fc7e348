/-!
# Media types

A media type is a type, a subtype that may end in a suffix behind a plus sign, and parameters.

## Main definitions

* `MediaType` — type, subtype and suffix.
* `MediaType.ofChars?` — the media type that a text spells.
* `MediaType.isJson` — documents of the type are JSON.
-/

namespace ProductSegments

/-- The essence of a media type, in lower case. -/
structure MediaType where
  main : List Char
  subtype : List Char
  suffix : Option (List Char)
  deriving DecidableEq, Repr

namespace MediaType

/-- The character may stand in a name. -/
def isNameChar (c : Char) : Bool := c.isAlphanum || "!#$%&'*+-.^_`|~".toList.contains c

/-- The character may stand between quotes. -/
def isQuotable (c : Char) : Bool := 0x20 ≤ c.toNat && c.toNat ≠ 0x7F

/-- What follows a quoted value and the blanks behind it: the next parameter, or the end. -/
def afterQuoted : List Char → Option (List Char)
  | [] => some []
  | c :: cs => if c = ';' then some cs else if c = ' ' then afterQuoted cs else none

/-- What follows the value of a parameter: the next parameter, or the end.  A value between quotes
and a value in front of another parameter are not empty. -/
def afterValue? (cs : List Char) : Option (List Char) :=
  match cs with
  | '"' :: c :: tail =>
    -- The first character between the quotes may itself be a quote.
    if isQuotable c then
      match tail.dropWhile fun c => isQuotable c && c ≠ '"' with
      | '"' :: rest => afterQuoted rest
      | _ => none
    else none
  | _ =>
    match cs.takeWhile isNameChar, cs.dropWhile isNameChar with
    | _, [] => some []
    | _ :: _, ';' :: rest => some rest
    | _, _ => none

/-- What follows the first parameter, if there is a well-formed one. -/
def afterParameter? (cs : List Char) : Option (List Char) :=
  match cs.takeWhile isNameChar, cs.dropWhile isNameChar with
  | _ :: _, '=' :: rest => afterValue? rest
  | _, _ => none

/-- At most `count` parameters are well formed.  Blanks may stand in front of each. -/
def areParameters : (count : Nat) → List Char → Bool
  | 0, _ => false
  | count + 1, cs => match cs.dropWhile (· = ' ') with
    | [] => true
    | cs => match afterParameter? cs with
      | some rest => areParameters count rest
      | none => false

/-- A subtype with the suffix behind its last plus sign. -/
def splitSuffix (cs : List Char) : List Char × Option (List Char) :=
  match cs with
  | [] => ([], none)
  | first :: tail =>
    match tail.reverse.span (· ≠ '+') with
    | (suffix, _ :: front) => (first :: front.reverse, some suffix.reverse)
    | (_, []) => (cs, none)

/-- The media type that a text spells. -/
def ofChars? (cs : List Char) : Option MediaType :=
  match cs.takeWhile isNameChar, cs.dropWhile isNameChar with
  | main@(_ :: _), '/' :: rest =>
    let subtype := rest.takeWhile isNameChar
    let isWellFormed := match rest.dropWhile isNameChar with
      | [] => true
      | ';' :: parameters => !subtype.isEmpty && areParameters (parameters.length + 1) parameters
      | _ => false
    let (name, suffix) := splitSuffix (subtype.map Char.toLower)
    if isWellFormed then some ⟨main.map Char.toLower, name, suffix⟩ else none
  | _, _ => none

/-- Documents of the type are JSON. -/
def isJson (m : MediaType) : Bool :=
  m.main = "application".toList &&
    (m.subtype = "json".toList || m.suffix = some "json".toList)

end MediaType

end ProductSegments
