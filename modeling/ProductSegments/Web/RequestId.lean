import ProductSegments.Web.Cors
import ProductSegments.Web.Message

/-!
# Request ids

Every request has an id: the one it was sent with, or a new one.  The response carries it.

## Main definitions

* `Web.Request.id` — the id of a request.
* `Web.idValue` — how an id stands in a header.
* `Web.Response.withId` — the response to a request with an id.
-/

namespace ProductSegments.Web

/-- The header that carries the id. -/
def idHeader : String := "x-request-id"

/-- What stands for an id that cannot stand in a header. -/
def unknownId : List UInt8 := Utf8.ofString "unknown"

/-- The id of a request: the first one sent if it is plain text, else the new one. -/
def Request.id (r : Request) (fresh : List Char) : List Char :=
  ((first? idHeader r.headers).bind plainText?).getD fresh

/-- How an id stands in a header: as it is, if it can. -/
def idValue (id : List Char) : List UInt8 :=
  let value := Utf8.encode id
  if value.all Cors.isHeaderByte then value else unknownId

/-- The response with the id of its request. -/
def Response.withId (id : List Char) (r : Response) : Response :=
  { r with headers := replace idHeader (idValue id) r.headers }

end ProductSegments.Web
