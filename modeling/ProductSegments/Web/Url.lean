import ProductSegments.Web.Percent

/-!
# Web addresses

An address is read leniently: blanks at its ends, tabs and line breaks in it do not count, a
backslash is as good as a slash, and what cannot stand in it is percent-encoded.  A reference may
also leave out what it has in common with the address of the page that it stands on.

## Main definitions

* `Web.Url` — the address of something on the web.
* `Web.Url.walk` — the path that a relative path leads to.
* `Web.Reference.read` — what a reference leads to.
* `Web.Url.withQuery` — the address with more in its query.
* `Web.Url.target` — what is asked for at the host.
-/

namespace ProductSegments.Web

/-- The address of something on the web, without a fragment. -/
structure Url where
  isSecure : Bool
  host : List Char
  /-- The number of the port, unless it is the one that goes without saying. -/
  tcpPort? : Option Nat
  /-- The parts between the slashes of the path. -/
  path : List (List Char)
  query? : Option (List Char)
  deriving DecidableEq, Repr

/-- What a reference leads to. -/
inductive Reference where
  | web (url : Url)
  /-- Something that is not on the web. -/
  | foreign
  | malformed
  deriving DecidableEq, Repr

namespace Url

/-! ### Paths -/

/-- A slash of either kind. -/
def isSlash (c : Char) : Bool := c = '/' || c = '\\'

/-- The text with the code of a dot replaced by the dot. -/
def plainDots : List Char → List Char
  | '%' :: '2' :: e :: cs =>
    if e = 'e' || e = 'E' then '.' :: plainDots cs else '%' :: plainDots ('2' :: e :: cs)
  | c :: cs => c :: plainDots cs
  | [] => []

/-- The segment stands for the place itself. -/
def isHere (segment : List Char) : Bool := plainDots segment = ['.']

/-- The segment stands for the place above. -/
def isAbove (segment : List Char) : Bool := plainDots segment = ['.', '.']

/-- The path that one leads to from another one.  It ends with a slash if it would end with a step
up or on the spot. -/
def walk (path : List (List Char)) : List (List Char) → List (List Char)
  | [] => path
  | [last] =>
    if isAbove last then path.dropLast ++ [[]] else if isHere last then path ++ [[]]
    else path ++ [last]
  | segment :: steps =>
    walk (if isAbove segment then path.dropLast else if isHere segment then path
      else path ++ [segment]) steps

/-! ### Parts of an address -/

/-- A path and a query, from the place `base` on. -/
def place (base : List (List Char)) (cs : List Char) : List (List Char) × Option (List Char) :=
  let path := cs.takeWhile fun c => c ≠ '?' && c ≠ '#'
  let query? := match cs.dropWhile fun c => c ≠ '?' && c ≠ '#' with
    | '?' :: query => some (Percent.encode Percent.inQuery (query.takeWhile (· ≠ '#')))
    | _ => none
  (walk base ((Percent.encode Percent.inPath path).splitOnP isSlash), query?)

/-- A path from the root, whose slash is read already or left out, and a query. -/
def rootPlace (cs : List Char) : List (List Char) × Option (List Char) :=
  match cs with
  | c :: rest => if isSlash c then place [] rest else place [] cs
  | [] => place [] []

/-- A character that no name of a host holds. -/
def isForbidden (c : Char) : Bool :=
  c.toNat ≤ 0x20 || c.toNat = 0x7F ||
    ['#', '/', ':', '<', '>', '?', '@', '[', '\\', ']', '^', '|', '%'].contains c

/-- A host and the text behind it, up to the end of the authority. -/
def host? : List Char → Option (List Char × List Char)
  | '[' :: cs =>
    let inner := cs.takeWhile (· ≠ ']')
    match cs.dropWhile (· ≠ ']') with
    | ']' :: rest =>
      if !inner.isEmpty && inner.all fun c => Percent.isHexDigit c || c = ':' || c = '.'
      then some ('[' :: (inner.map Char.toLower ++ [']']), rest) else none
    | _ => none
  | cs =>
    let name := cs.takeWhile (· ≠ ':')
    if name.isEmpty || name.any isForbidden then none
    else some (name.map Char.toLower, cs.dropWhile (· ≠ ':'))

/-- The number of the port of a scheme. -/
def standardPort (isSecure : Bool) : Nat := if isSecure then 443 else 80

/-- A colon with the number of a port, which may be left out. -/
def portOf? (isSecure : Bool) : List Char → Option (Option Nat)
  | [] => some none
  | ':' :: ds =>
    if ds.isEmpty then some none
    else if ds.all Char.isDigit then
      let n := ds.foldl (fun n d => 10 * n + (d.toNat - '0'.toNat)) 0
      if 65535 < n then none else some (if n = standardPort isSecure then none else some n)
    else none
  | _ => none

/-- An address from its authority on.  What stands before the last `@` is not part of the host. -/
def fromAuthority (isSecure : Bool) (cs : List Char) : Reference :=
  let ends (c : Char) : Bool := isSlash c || c = '?' || c = '#'
  let authority := cs.takeWhile (!ends ·)
  let address? := do
    let (host, rest) ← host? (authority.reverse.takeWhile (· ≠ '@')).reverse
    let tcpPort? ← portOf? isSecure rest
    let (path, query?) := rootPlace (cs.dropWhile (!ends ·))
    return Url.mk isSecure host tcpPort? path query?
  address?.elim .malformed .web

/-! ### Use -/

/-- The address with fields added to its query. -/
def withQuery (url : Url) (fields : List (String × String)) : Url :=
  let query := match url.query? with
    | none | some [] => Percent.form fields
    | some query => query ++ '&' :: Percent.form fields
  { url with query? := some query }

/-- What is asked for at the host. -/
def target (url : Url) : List Char :=
  '/' :: (['/'].intercalate url.path ++ (url.query?.elim [] ('?' :: ·)))

end Url

namespace Reference

/-- The characters that count: neither blanks and control characters at the ends, nor tabs and line
breaks. -/
def significant (cs : List Char) : List Char :=
  let trimmed := (cs.dropWhile fun c => c.toNat ≤ 0x20).reverse.dropWhile fun c => c.toNat ≤ 0x20
  trimmed.reverse.filter fun c => c ≠ '\t' && c ≠ '\n' && c ≠ '\r'

/-- The scheme in lower case, and what stands behind its colon. -/
def scheme? (cs : List Char) : Option (List Char × List Char) :=
  let isInner (c : Char) : Bool := c.isAlphanum || c = '+' || c = '-' || c = '.'
  match cs.takeWhile isInner, cs.dropWhile isInner with
  | c :: name, ':' :: rest => if c.isAlpha then some ((c :: name).map Char.toLower, rest) else none
  | _, _ => none

/-- What a reference without a scheme leads to from an address. -/
def relative (base : Url) (cs : List Char) : Reference :=
  match cs with
  | [] => .web base
  | '#' :: _ => .web base
  | '?' :: _ => .web { base with query? := (Url.place [] cs).2 }
  | c :: rest =>
    if Url.isSlash c then
      if (rest.head?).any Url.isSlash then Url.fromAuthority base.isSecure (rest.dropWhile Url.isSlash)
      else
        let (path, query?) := Url.place [] rest
        .web { base with path, query? }
    else
      let (path, query?) := Url.place base.path.dropLast cs
      .web { base with path, query? }

/-- What a reference leads to, from an address if there is one. -/
def read (base? : Option Url) (text : List Char) : Reference :=
  let cs := significant text
  match scheme? cs with
  | some (scheme, rest) =>
    if scheme = "http".toList ∨ scheme = "https".toList then
      let isSecure : Bool := scheme = "https".toList
      let isRelative := (rest.takeWhile Url.isSlash).length < 2
      match base?.filter fun base => isRelative && base.isSecure = isSecure with
      | some base => relative base rest
      | none => Url.fromAuthority isSecure (rest.dropWhile Url.isSlash)
    else .foreign
  | none => base?.elim .malformed (relative · cs)

end Reference

end ProductSegments.Web
