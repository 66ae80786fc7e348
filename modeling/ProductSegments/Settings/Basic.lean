import ProductSegments.Settings.Value

/-!
# Settings

What can be set of the service, with the values that hold where nothing is set.

## Main definitions

* `Settings.Config` — all settings, in sections.
* `Settings.Config.ofValue?` — the settings that a tree holds, unless one of them is not what it
  should be.
-/

namespace ProductSegments.Settings

/-- Where the service listens. -/
structure Listener where
  host : String
  tcpPort : UInt16
  deriving DecidableEq, Repr

/-- Where the products come from. -/
inductive Origin where
  | productService
  | shop
  deriving DecidableEq, Repr

/-- How the catalog is asked for. -/
structure Catalog where
  origin : Origin
  baseUrl : String
  consumerKey : Option String
  consumerSecret : Option String
  /-- How long to wait for an answer, in seconds. -/
  timeout : Option UInt64
  /-- The time between refreshes, in seconds; zero is for no cache. -/
  refreshInterval : UInt64
  perPage : UInt32
  deriving DecidableEq, Repr

/-- What the service tells of itself. -/
structure Observability where
  serviceName : String
  logLevel : String
  logFormat : String
  hasMetrics : Bool
  metricsPort : UInt16
  /-- Where traces are sent, if they are. -/
  traceEndpoint : Option String
  deriving DecidableEq, Repr

/-- All settings. -/
structure Config where
  serviceName : String
  environment : String
  listener : Listener
  catalog : Catalog
  observability : Observability
  /-- The web origins whose pages may use the service. -/
  allowedOrigins : List String
  deriving DecidableEq, Repr

/-! ### Defaults -/

/-- The service listens on all addresses. -/
def Listener.standard : Listener := ⟨"0.0.0.0", 5000⟩

/-- The products come from a product service on the same machine. -/
def Catalog.standard : Catalog :=
  ⟨.productService, "http://localhost:4000", none, none, none, 20, 100⟩

/-- The service tells its metrics. -/
def Observability.standard : Observability :=
  ⟨"unknown-service", "info", "pretty", true, 9090, none⟩

/-- The settings that hold where nothing is set. -/
def Config.standard : Config := ⟨"", "", .standard, .standard, .standard, []⟩

/-! ### Reading -/

/-- The member that `find` finds, as `read` takes it; `standard` if there is none. -/
def member {α : Type} (read : Value → Option α) (standard : α) (found : Option Value) : Option α :=
  match found with
  | some value => read value
  | none => some standard

/-- The value as a number of 16 bits. -/
def uint16? (v : Value) : Option UInt16 := (v.natural? UInt16.size).map .ofNat

/-- The value as a number of 32 bits. -/
def uint32? (v : Value) : Option UInt32 := (v.natural? UInt32.size).map .ofNat

/-- The value as a number of 64 bits. -/
def uint64? (v : Value) : Option UInt64 := (v.natural? UInt64.size).map .ofNat

/-- The origin with a name. -/
def Origin.ofName? (name : String) : Option Origin :=
  if name = "product_service" then some .productService
  else if name = "woocommerce" then some .shop
  else none

/-- The origin that a value names, as a text or as the only key of a table. -/
def Origin.ofValue? : Value → Option Origin
  | .text name | .table [(name, _)] => Origin.ofName? name
  | _ => none

/-- The listener that a value describes. -/
def Listener.ofValue? (v : Value) : Option Listener := do
  let find ← v.members?
  return ⟨← member Value.text? Listener.standard.host (find 0 "host"),
    ← member uint16? Listener.standard.tcpPort (find 1 "port")⟩

/-- The way to the catalog that a value describes. -/
def Catalog.ofValue? (v : Value) : Option Catalog := do
  let find ← v.members?
  let d := Catalog.standard
  return {
    origin := ← member Origin.ofValue? d.origin (find 0 "source")
    baseUrl := ← member Value.text? d.baseUrl (find 1 "base_url")
    consumerKey := ← member (Value.optional? Value.text?) d.consumerKey (find 2 "consumer_key")
    consumerSecret := ← member (Value.optional? Value.text?) d.consumerSecret (find 3 "consumer_secret")
    timeout := ← member (Value.optional? uint64?) d.timeout (find 4 "timeout_seconds")
    refreshInterval := ← member uint64? d.refreshInterval (find 5 "refresh_interval_seconds")
    perPage := ← member uint32? d.perPage (find 6 "per_page") }

/-- What is told, as a value describes it. -/
def Observability.ofValue? (v : Value) : Option Observability := do
  let find ← v.members?
  let d := Observability.standard
  return {
    serviceName := ← member Value.text? d.serviceName (find 0 "service_name")
    logLevel := ← member Value.text? d.logLevel (find 1 "log_level")
    logFormat := ← member Value.text? d.logFormat (find 2 "log_format")
    hasMetrics := ← member Value.flag? d.hasMetrics (find 3 "metrics_enabled")
    metricsPort := ← member uint16? d.metricsPort (find 4 "metrics_port")
    traceEndpoint := ← member (Value.optional? Value.text?) d.traceEndpoint (find 5 "otlp_endpoint") }

/-- The allowed origins that a value describes. -/
def allowedOrigins? (v : Value) : Option (List String) := do
  let find ← v.members?
  member Value.texts? [] (find 0 "allowed_origins")

/-- The settings that a tree holds.  Keys of no interest are passed over. -/
def Config.ofValue? (v : Value) : Option Config := do
  let find ← v.members?
  let d := Config.standard
  return {
    serviceName := ← member Value.text? d.serviceName (find 0 "service_name")
    environment := ← member Value.text? d.environment (find 1 "environment")
    listener := ← member Listener.ofValue? d.listener (find 2 "server")
    catalog := ← member Catalog.ofValue? d.catalog (find 3 "catalog")
    observability := ← member Observability.ofValue? d.observability (find 4 "observability")
    allowedOrigins := ← member allowedOrigins? d.allowedOrigins (find 5 "cors") }

/-! ### What follows from settings -/

/-- How long to wait for the catalog, in seconds: a shop gets more time than a product service. -/
def Catalog.timeoutSeconds (c : Catalog) : UInt64 :=
  c.timeout.getD (match c.origin with
    | .productService => 10
    | .shop => 30)

/-- The time between refreshes in seconds, if the catalog is kept at all. -/
def Catalog.refreshSeconds? (c : Catalog) : Option UInt64 :=
  if c.refreshInterval = 0 then none else some c.refreshInterval

/-- The address on which the service listens. -/
def Config.address (c : Config) : String :=
  c.listener.host ++ ":" ++ toString c.listener.tcpPort.toNat

/-- The service is in production. -/
def Config.isProduction (c : Config) : Bool := c.environment = "production"

/-- Log lines are written as JSON. -/
def Observability.logsJson (o : Observability) : Bool := Value.sameWord o.logFormat "json"

/-- What is told under the name of the service. -/
def Config.named (c : Config) : Observability :=
  { c.observability with serviceName := c.serviceName }

end ProductSegments.Settings
