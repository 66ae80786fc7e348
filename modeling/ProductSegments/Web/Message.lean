import ProductSegments.Web.Uri

/-!
# Requests and responses

## Main definitions

* `Web.Request`, `Web.Response` — the messages of the service.
* `Web.Request.path` — the path that is asked for, without its query.
* `Web.first?` — the first value of a header; letter case in names does not count.
-/

namespace ProductSegments.Web

/-- Headers in the order in which they were sent. -/
abbrev Headers := List (String × List UInt8)

/-- A request to the service. -/
structure Request where
  method : String
  target : String
  headers : Headers
  body : List UInt8
  deriving DecidableEq, Repr

/-- A response of the service. -/
structure Response where
  status : Nat
  headers : Headers
  body : List Char
  deriving DecidableEq, Repr

/-- The path that is asked for, without query and fragment.  There is none in a target that is no
resource identifier. -/
def Request.path (r : Request) : String :=
  ((Uri.ofChars? r.target.toList).map fun u => String.ofList u.path).getD ""

/-- The first value of a header. -/
def first? (name : String) (headers : Headers) : Option (List UInt8) :=
  (headers.find? fun (n, _) => n.toLower = name).map Prod.snd

/-- The headers with exactly one value for a name. -/
def replace (name : String) (value : List UInt8) (headers : Headers) : Headers :=
  headers.filter (fun (n, _) => n.toLower ≠ name) ++ [(name, value)]

/-- A byte of a header that is plain text: printable ASCII or a tab. -/
def isPlain (b : UInt8) : Bool := (0x20 ≤ b && b < 0x7F) || b = 0x09

/-- A header value as text, if it is plain. -/
def plainText? (value : List UInt8) : Option (List Char) :=
  if value.all isPlain then some (value.map fun b => .ofNat b.toNat) else none

/-- A response without a body. -/
def Response.blank (status : Nat) : Response := ⟨status, [], []⟩

/-- A response with a body of a type. -/
def Response.of (status : Nat) (type : String) (body : List Char) : Response :=
  ⟨status, [("content-type", Utf8.ofString type)], body⟩

/-- A response with a JSON document. -/
def Response.json (status : Nat) (document : List Char) : Response :=
  .of status "application/json" document

end ProductSegments.Web
