import ProductSegments.Catalog.Failure
import ProductSegments.Json.Writer
import ProductSegments.Web.Message

/-!
# Problems

What the service tells its clients when a request fails.  Of a catalog failure they learn the code
only.

## Main definitions

* `Service.Problem` — what can go wrong with a request.
* `Service.Problem.response` — the response about it.
-/

namespace ProductSegments.Service

/-- What went wrong with a request. -/
inductive Problem where
  /-- The body does not hold a list of rules. -/
  | invalidRequest (details : String)
  /-- There are no products to select from. -/
  | evaluation (failure : Catalog.Failure)
  /-- There are no products to list, or none to refresh the catalog with. -/
  | catalog (failure : Catalog.Failure)
  deriving DecidableEq, Repr

namespace Problem

/-- The status of the response. -/
def status : Problem → Nat
  | invalidRequest _ => 400
  | evaluation _ | catalog _ => 500

/-- The code of a problem. -/
def code : Problem → String
  | invalidRequest _ => "INVALID_REQUEST"
  | evaluation failure | catalog failure => failure.code

/-- The wording of a problem. -/
def message : Problem → String
  | invalidRequest _ => "Invalid request format"
  | evaluation _ => "Failed to evaluate segment rules"
  | catalog _ => "Failed to fetch products"

/-- The details that clients learn. -/
def details? : Problem → Option String
  | invalidRequest details => some details
  | evaluation _ | catalog _ => none

/-- The response about a problem, its members in alphabetical order. -/
def response (p : Problem) : Web.Response :=
  .json p.status (Json.Writer.object (
    [("code", Json.Writer.string p.code)] ++
    (p.details?.map fun details => ("details", Json.Writer.string details)).toList ++
    [("error", Json.Writer.string p.message), ("success", Json.Writer.flag false)]))

end Problem

end ProductSegments.Service
