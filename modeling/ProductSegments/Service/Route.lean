import ProductSegments.Service.Evaluation
import ProductSegments.Web.Cors

/-!
# Routes

What the service does with a request: a few paths are known, each with one method, and all other
requests are turned away.

## Main definitions

* `Service.Endpoint` — what can be asked of the service.
* `Service.Routes` — the paths of the endpoints; `Service.routes` are those of the service.
* `Service.Order` — what an endpoint needs the catalog for.
* `Service.plan` — the response to a request, or the order that leads to it;
  `Service.guardedPlan` also answers questions about cross-origin requests.
* `Service.Order.response` — the response to an order.
-/

namespace ProductSegments.Service

/-- What can be asked of the service. -/
inductive Endpoint where
  /-- The segment of some rules. -/
  | evaluate
  /-- The catalog. -/
  | products
  /-- A refresh of the catalog. -/
  | refresh
  /-- A sign of life. -/
  | health
  /-- The id of the request. -/
  | identity
  deriving DecidableEq, Repr

/-- The endpoints by their paths. -/
abbrev Routes := List (String × Endpoint)

/-- The routes of the service. -/
def routes : Routes :=
  [("/segments/evaluate", .evaluate), ("/products", .products), ("/catalog/refresh", .refresh),
    ("/health", .health)]

/-- The routes of the service, and one that shows the id of a request. -/
def probedRoutes : Routes := routes ++ [("/__id", .identity)]

/-- The name of the service. -/
def serviceName : String := "segment-service"

/-- The endpoint changes something or takes a body, so it is asked by `POST`. -/
def Endpoint.isPost : Endpoint → Bool
  | evaluate | refresh => true
  | products | health | identity => false

/-- The methods by which an endpoint is asked.  What can be got can be asked for without body. -/
def Endpoint.methods (e : Endpoint) : List String := if e.isPost then ["POST"] else ["GET", "HEAD"]

/-- What an endpoint needs the catalog for. -/
inductive Order where
  | evaluate (rules : List String)
  | list
  | refresh
  deriving DecidableEq, Repr

/-- The route of a request, if its path is known. -/
def route? (routes : Routes) (r : Web.Request) : Option (String × Endpoint) :=
  routes.find? fun (path, _) => path = r.path

/-- The response with the methods by which an endpoint is asked. -/
def Endpoint.turnAway (e : Endpoint) (r : Web.Response) : Web.Response :=
  { r with headers := ("allow", Utf8.ofString (",".intercalate e.methods)) :: r.headers }

/-- The response to a request with an id, or the order that leads to it. -/
def plan (wording : Wording) (routes : Routes) (id : List Char) (r : Web.Request) :
    Web.Response ⊕ Order :=
  match route? routes r with
  | none => .inl (.blank 404)
  | some (_, endpoint) =>
    if !endpoint.methods.contains r.method then .inl (endpoint.turnAway (.blank 405))
    else match endpoint with
      | .evaluate => match rules? r with
        | .ok rules => .inr (.evaluate rules)
        | .error rejection => .inl (Problem.invalidRequest (wording r rejection)).response
      | .products => .inr .list
      | .refresh => .inr .refresh
      | .health => .inl (.json 200 (Json.Writer.object [
          ("status", Json.Writer.string "ok"), ("service", Json.Writer.string serviceName)]))
      | .identity => .inl (.of 200 "text/plain; charset=utf-8" id)

/-- The plan for a request, which may be a question about cross-origin requests if they are looked
after. -/
def guardedPlan (cors? : Option Web.Cors) (wording : Wording) (routes : Routes) (id : List Char)
    (r : Web.Request) : Web.Response ⊕ Order :=
  if cors?.isSome && Web.Cors.isPreflight r then
    .inl (((route? routes r).map Prod.snd).elim Web.Cors.preflight
      (·.turnAway Web.Cors.preflight))
  else plan wording routes id r

/-- The response to an order that the catalog has been consulted for; segments are worked out with
or without a trace. -/
def Order.response (order : Order) (traced : Bool)
    (outcome : Except Catalog.Failure (List Product)) : Web.Response :=
  match order, outcome with
  | evaluate rules, .ok products => .json 200 (evaluated traced products rules)
  | evaluate _, .error failure => (Problem.evaluation failure).response
  | list, .ok products => .json 200 (Catalog.ProductList.of products).chars
  | refresh, .ok products => .json 200 (Json.Writer.object [
      ("status", Json.Writer.string "ok"),
      ("service", Json.Writer.string "refreshed products"),
      ("count", Json.Writer.integer products.length)])
  | list, .error failure | refresh, .error failure => (Problem.catalog failure).response

/-- The response without its body if only its head was asked for. -/
def headOnly (r : Web.Request) (response : Web.Response) : Web.Response :=
  if r.method = "HEAD" then { response with body := [] } else response

end ProductSegments.Service
