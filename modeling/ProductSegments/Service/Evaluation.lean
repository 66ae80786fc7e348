import ProductSegments.Catalog.ProductList
import ProductSegments.Segment
import ProductSegments.Service.Problem
import ProductSegments.Web.MediaType

/-!
# Evaluation requests

A client asks for a segment by a JSON document with a list of rule lines.

## Main definitions

* `Service.Rejection` — why a request holds no list of rules; `Service.Wording` is how that is told.
* `Service.rules?` — the rules of a request.
* `Service.evaluated` — the response about a segment.
-/

namespace ProductSegments.Service

/-- Why a request holds no list of rules. -/
inductive Rejection where
  /-- The content type is not that of JSON. -/
  | contentType
  /-- The body is too long. -/
  | length
  /-- The body cannot be read. -/
  | document (fault : Json.Fault)
  deriving DecidableEq, Repr

/-- The wording of a rejection up to its first colon.  What follows depends on the request. -/
def Rejection.heading : Rejection → String
  | contentType => "Expected request with `Content-Type"
  | length => "Failed to buffer the request body"
  | document .malformed => "Failed to parse the request body as JSON"
  | document .unexpected => "Failed to deserialize the JSON body into the target type"

/-- How the rejection of a request is worded. -/
abbrev Wording := Web.Request → Rejection → String

/-- The wording that is cut off at the first colon. -/
def Wording.brief : Wording := fun _ rejection => rejection.heading

/-- The longest body that is taken, in bytes. -/
def bodyLimit : Nat := 2097152

/-- The request says that its body is JSON. -/
def saysJson (headers : Web.Headers) : Bool :=
  (((Web.first? "content-type" headers).bind Web.plainText?).bind MediaType.ofChars?).any (·.isJson)

/-- The record that holds the rules. -/
def rulesReader : Json.Reader (List String) :=
  Json.record [.of "rules" (Json.array Product.textReader) id (fun v _ => some v) false] none id

/-- The rules of a request. -/
def rules? (r : Web.Request) : Except Rejection (List String) :=
  if !saysJson r.headers then .error .contentType
  else if bodyLimit < r.body.length then .error .length
  else match Json.document rulesReader r.body with
    | .ok rules => .ok rules
    | .error fault => .error (.document fault)

/-- The document about a segment of a catalog, worked out with or without a trace: with the number
of products in the catalog, or with a message if there are none. -/
def evaluated (traced : Bool) (products : List Product) (rules : List String) : List Char :=
  let chosen := (Segment.report traced products rules).products
  let note := if products.isEmpty then ("message", Json.Writer.string "No products found")
    else ("count", Json.Writer.integer products.length)
  Json.Writer.object [
    ("success", Json.Writer.flag true),
    ("data", Json.Writer.array (chosen.map Product.chars)),
    note,
    ("rules_applied", Json.Writer.array (rules.map Json.Writer.string))]

end ProductSegments.Service
