import ProductSegments.Text.Utf8

/-!
# Resource identifiers

Requests ask for a resource identifier, and some addresses have to be one.  It is a scheme with an
authority and perhaps a path and a query, an authority alone, or a path with a query.  Unlike in an
address that is asked for, nothing is resolved or escaped.

## Main definitions

* `Web.Uri` — a resource identifier.
* `Web.Uri.authorityEnd?` — how far the authority at the front of a text goes.
* `Web.Uri.ofChars?` — the resource identifier that a text spells.
* `Web.Uri.path` — its path.
-/

namespace ProductSegments.Web

/-- A resource identifier.  A fragment does not belong to it. -/
structure Uri where
  scheme : Option (List Char)
  authority : List Char
  place : List Char
  query : Option (List Char)
  deriving DecidableEq, Repr

namespace Uri

/-- The character is one of some. -/
def isOneOf (chars : String) (c : Char) : Bool := chars.toList.contains c

/-- A character of a scheme. -/
def inScheme (c : Char) : Bool := c.isAlphanum || isOneOf "+-." c

/-- A character of an authority, its marks included. -/
def inAuthority (c : Char) : Bool := c.isAlphanum || isOneOf "!$&'()*+,-.:;=@[]_~%" c

/-- A character of a path, which may be outside ASCII. -/
def inPath (c : Char) : Bool := 0x21 ≤ c.toNat && c.toNat ≠ 0x7F && !isOneOf "#<>?`" c

/-- A character of a query, which may be outside ASCII. -/
def inQuery (c : Char) : Bool := 0x21 ≤ c.toNat && c.toNat ≠ 0x7F && !isOneOf "\"#<>" c

/-- The longest scheme. -/
def maxScheme : Nat := 64

/-- The scheme in front of `://`, if there is one, and the text behind; `none` if it is too long. -/
def scheme? (cs : List Char) : Option (Option (List Char) × List Char) :=
  match cs.dropWhile inScheme with
  | ':' :: '/' :: '/' :: rest =>
    let scheme := cs.takeWhile inScheme
    if cs.length ≤ 3 then some (none, cs)
    else if maxScheme < scheme.length then none
    else some (some scheme, rest)
  | _ => some (none, cs)

/-- What has been seen of an authority. -/
structure Authority where
  /-- The colons that may belong to a port. -/
  colons : Nat
  isOpened : Bool
  isClosed : Bool
  /-- There is a percent sign outside user and bracketed address. -/
  hasPercent : Bool
  /-- The last character was the mark behind a user. -/
  endsWithAt : Bool

/-- Nothing has been seen. -/
def Authority.empty : Authority := ⟨0, false, false, false, false⟩

/-- The most colons in one address. -/
def maxColons : Nat := 8

/-- Take in one more character of an authority. -/
def Authority.next? (a : Authority) (c : Char) : Option Authority :=
  let a := { a with endsWithAt := false }
  if !inAuthority c then none
  else if c = ':' then
    if maxColons ≤ a.colons then none else some { a with colons := a.colons + 1 }
  else if c = '[' then
    if a.hasPercent || a.isOpened then none else some { a with isOpened := true }
  else if c = ']' then
    if !a.isOpened || a.isClosed then none
    else some { a with isClosed := true, colons := 0, hasPercent := false }
  else if c = '@' then some { a with colons := 0, hasPercent := false, endsWithAt := true }
  else if c = '%' then some { a with hasPercent := true }
  else some a

/-- An authority may end here. -/
def Authority.isComplete (a : Authority) : Bool :=
  a.isOpened = a.isClosed && a.colons ≤ 1 && !a.endsWithAt && !a.hasPercent

/-- A character in front of which an authority ends. -/
def endsAuthority (c : Char) : Bool := isOneOf "/?#" c

/-- How far the authority at the front of a text goes, if it is well-formed. -/
def authorityEnd? (cs : List Char) : Option Nat :=
  let authority := cs.takeWhile (!endsAuthority ·)
  match authority.foldlM Authority.next? .empty with
  | some a => if a.isComplete then some authority.length else none
  | none => none

/-- The path and the query that a text spells.  A fragment is not looked at. -/
def place? (cs : List Char) : Option (List Char × Option (List Char)) :=
  let cs := cs.takeWhile (· ≠ '#')
  let place := cs.takeWhile (· ≠ '?')
  if !place.all inPath then none
  else match cs.dropWhile (· ≠ '?') with
    | _ :: query => if query.all inQuery then some (place, some query) else none
    | [] => some (place, none)

/-- The longest identifier, in bytes. -/
def maxSize : Nat := 65534

/-- The resource identifier that a text of any length spells. -/
def ofLong? (cs : List Char) : Option Uri :=
  match cs with
  | [] => none
  | '/' :: _ => (place? cs).map fun (place, query) => ⟨none, [], place, query⟩
  | ['*'] => some ⟨none, [], cs, none⟩
  | _ => match scheme? cs with
    | none => none
    | some (none, cs) =>
      if authorityEnd? cs = some cs.length then some ⟨none, cs, [], none⟩ else none
    | some (some scheme, cs) => match authorityEnd? cs with
      | none | some 0 => none
      | some n => (place? (cs.drop n)).map fun (place, query) => ⟨some scheme, cs.take n, place, query⟩

/-- The resource identifier that a text spells. -/
def ofChars? (cs : List Char) : Option Uri :=
  if maxSize < (Utf8.encode cs).length then none else ofLong? cs

/-- The path, which is a slash where there is only an authority behind a scheme. -/
def path (u : Uri) : List Char :=
  if u.place.isEmpty && u.scheme.isSome then ['/'] else u.place

end Uri

end ProductSegments.Web
