import ProductSegments.Catalog.ProductList
import ProductSegments.Catalog.Shop
import ProductSegments.Catalog.Supplier
import ProductSegments.Settings.Basic
import ProductSegments.Web.Client

/-!
# Sources of the catalog

The supplier of the catalog is a product service or a shop on the web.

## Main definitions

* `Catalog.Source` — where the catalog comes from.
* `Catalog.Source.address` — what a source is asked for.
* `Catalog.Source.read` — the products that the body of its answer holds.
* `Catalog.Source.outcome` — what an exchange with the source means for the catalog.
* `Catalog.Source.fetch` — the exchange with a source over a network.
-/

namespace ProductSegments.Catalog

/-- Where the catalog comes from. -/
inductive Source where
  | productService (baseUrl : String)
  | shop (baseUrl key secret : String) (perPage : UInt32)
  deriving DecidableEq, Repr

namespace Source

/-- The source that is set. -/
def ofSettings (c : Settings.Catalog) : Source :=
  match c.origin with
  | .productService => productService c.baseUrl
  | .shop => shop c.baseUrl (c.consumerKey.getD "") (c.consumerSecret.getD "") c.perPage

/-- The name by which a source is called when it is late. -/
def name : Source → String
  | productService _ => "product-service"
  | shop .. => "woocommerce"

/-- What the source is asked for.  A shop is told who asks, how many products are wanted, and that
they have to be on display. -/
def address : Source → Web.Reference
  | productService baseUrl =>
    let base := (baseUrl.toList.reverse.dropWhile (· = '/')).reverse
    .read none (base ++ "/products".toList)
  | shop baseUrl key secret perPage =>
    match Web.Reference.read none baseUrl.toList with
    | .web url => .web (url.withQuery [("consumer_key", key), ("consumer_secret", secret),
        ("per_page", toString perPage.toNat), ("status", "publish")])
    | reference => reference

/-- The products that the body of an answer holds.  A product service may say that it refuses. -/
def read (source : Source) (body : List UInt8) : Outcome :=
  match source with
  | productService _ => match Json.document ProductList.reader body with
    | .ok list => if list.success then .ok list.products else .error .rejected
    | .error _ => .error (.undecodable "error decoding response body")
  | shop .. => match Shop.records? body with
    | .ok records => .ok (records.map Shop.Record.product)
    | .error _ => .error (.undecodable "error decoding response body")

/-- What an exchange with the source means for the catalog.  Once the answer has begun, a body that
does not arrive in full counts as one that holds no products. -/
def outcome (source : Source) (result : Except Web.Mishap Web.Answer) : Outcome :=
  match result with
  | .error .deadline => .error (.timedOut source.name)
  | .error .address => .error (.unavailable "builder error")
  | .error .connection => .error (.unavailable "error sending request")
  | .error .redirects => .error (.unavailable "error following redirect")
  | .ok answer =>
    if !answer.isSuccess then .error (.status answer.status)
    else match answer.arrival with
      | .complete body => source.read body
      | .lost | .late => .error (.undecodable "error decoding response body")

/-- What the hosts on the way to the products are asked for, and what comes of it. -/
def fetch (source : Source) (network : Web.Network) : List (List Char) × Outcome :=
  let exchange := Web.get network source.address
  (exchange.targets, source.outcome exchange.result)

end Source

end ProductSegments.Catalog
