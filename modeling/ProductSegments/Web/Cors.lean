import ProductSegments.Text.Blank
import ProductSegments.Web.Message

/-!
# Cross-origin requests

A browser asks whether a page of another origin may use the service.  The answer stands in the
headers of every response; a request with the method `OPTIONS` asks for nothing else.

## Main definitions

* `Web.Cors` — which origins may use the service.
* `Web.Cors.ofEntries?` — the origins that some entries admit.
* `Web.Cors.admits?` — what is said about the origin of a request.
* `Web.Cors.mark`, `Web.Cors.preflight` — the headers of responses.
-/

namespace ProductSegments.Web

/-- Which origins may use the service. -/
inductive Cors where
  | any
  | listed (origins : List (List UInt8))
  deriving DecidableEq, Repr

namespace Cors

/-- What stands for all origins. -/
def star : List UInt8 := Utf8.ofString "*"

/-- A byte that can stand in a header. -/
def isHeaderByte (b : UInt8) : Bool := (0x20 ≤ b && b ≠ 0x7F) || b = 0x09

/-- The value of a header that an entry is, blanks at its ends aside. -/
def headerValue? (entry : String) : Option (List UInt8) :=
  let value := Utf8.encode (Text.trim entry.toList)
  if value.all isHeaderByte then some value else none

/-- The origins that some entries admit.  No entries admit all origins, and so does a star.  Entries
that cannot stand in a header are passed over.  A star with blanks around it is neither a star nor
an origin, and nothing can be made of the entries. -/
def ofEntries? (entries : List String) : Option Cors :=
  if entries.isEmpty || entries.contains "*" then some .any
  else
    let origins := entries.filterMap headerValue?
    if origins.contains star then none else some (.listed origins)

/-- What is said about the origin of a request, if anything is. -/
def admits? (c : Cors) (origin? : Option (List UInt8)) : Option (List UInt8) :=
  match c with
  | any => some star
  | listed origins => origin?.filter (origins.contains ·)

/-- What else a response depends on. -/
def vary : String := "origin, access-control-request-method, access-control-request-headers"

/-- The response to a request, with what is to be said about the origin of the request. -/
def mark (c : Cors) (request : Request) (response : Response) : Response :=
  let admitted := (c.admits? (first? "origin" request.headers)).toList
  { response with headers := response.headers ++ ("vary", Utf8.ofString vary) ::
      admitted.map fun origin => ("access-control-allow-origin", origin) }

/-- The request asks what requests are welcome. -/
def isPreflight (request : Request) : Bool := request.method = "OPTIONS"

/-- The response to such a request: all methods and headers are. -/
def preflight : Response :=
  { Response.blank 200 with
    headers := [("access-control-allow-methods", star), ("access-control-allow-headers", star)] }

end Cors

end ProductSegments.Web
