import ProductSegments.Catalog.Source
import ProductSegments.Service.World
import ProductSegments.Settings.Load
import ProductSegments.Web.HostAddress
import ProductSegments.Web.Uri

/-!
# Launching the service

A service starts if its settings can be loaded and it can do what they say.

## Main definitions

* `Service.Refusal` — why a service does not start, with the exit status.
* `Service.launch` — the settings that a service runs with.
* `Service.Setting.ofConfig`, `Service.World.launched` — the service that is launched.
-/

namespace ProductSegments.Service

/-- Why a service does not start. -/
inductive Refusal where
  /-- The settings cannot be loaded. -/
  | settings
  /-- Traces cannot be sent where they are to be sent. -/
  | traces
  /-- The allowed origins make no sense. -/
  | origins
  /-- The service cannot listen at its address, or not with its metrics on the same one. -/
  | address
  deriving DecidableEq, Repr

/-- The exit status of a service that runs until it is told to stop. -/
def stoppedStatus : Nat := 0

/-- The exit status of a service that does not start.  Senseless origins are a crash. -/
def Refusal.status : Refusal → Nat
  | settings | traces | address => 1
  | origins => 101

/-- The address of a host that is known without asking anybody.  A long address may stand in
brackets. -/
def hostAddress? (host : String) : Option Web.HostAddress :=
  if Settings.Value.sameWord host "localhost" then Web.HostAddress.short? "127.0.0.1".toList
  else match host.toList with
    | '[' :: cs =>
      if cs.getLast? = some ']' then Web.HostAddress.long? cs.dropLast else none
    | cs => Web.HostAddress.short? cs <|> Web.HostAddress.long? cs

/-- Traces can be sent to where they are to be sent: to a place on the net or to a file.  An empty
text names the usual place. -/
def canTrace (o : Settings.Observability) : Bool :=
  match o.traceEndpoint with
  | none => true
  | some endpoint => endpoint.isEmpty || endpoint.startsWith "unix:" ||
      (Web.Uri.ofChars? endpoint.toList).isSome

/-- The service can listen at its address, and its metrics have a port of their own. -/
def canListen (c : Settings.Config) : Bool :=
  let tcpPort := c.listener.tcpPort
  let isShared := c.observability.hasMetrics && c.observability.metricsPort = tcpPort && tcpPort ≠ 0
  (hostAddress? c.listener.host).any fun address =>
    address.isOwn && !(isShared && address.meetsShort)

/-- The settings that a service runs with, and the origins that may use it; or why it does not
start. -/
def launch (files : Settings.Files) (env : Settings.Environment) :
    Except Refusal (Settings.Config × Web.Cors) :=
  match Settings.load files env serviceName with
  | none => .error .settings
  | some config =>
    if !canTrace config.observability then .error .traces
    else match Web.Cors.ofEntries? config.allowedOrigins with
      | none => .error .origins
      | some cors => if canListen config then .ok (config, cors) else .error .address

/-- The service as it is set, over the network that each call to the supplier meets. -/
def Setting.ofConfig (config : Settings.Config) (cors : Web.Cors) (network : Nat → Web.Network)
    (freshId : Nat → List Char) (wording : Wording) : Setting where
  terms := ⟨fun n => ⟨((Catalog.Source.ofSettings config.catalog).fetch (network n)).2, 0⟩, .standard⟩
  isCached := config.catalog.refreshSeconds?.isSome
  isLayered := true
  isTraced := Settings.Value.sameWord config.observability.logLevel "debug"
  cors? := some cors
  routes := Service.routes
  freshId := freshId
  wording := wording

/-- A service that has just been launched.  If it keeps the catalog, a worker refreshes it. -/
def World.launched (config : Settings.Config) : World :=
  let metrics := if config.observability.hasMetrics then Metrics.empty.started config.serviceName
    else .empty
  { World.initial with
    catalog := { Catalog.State.initial with metrics }
    workers := config.catalog.refreshSeconds?.toList.map fun seconds =>
      Catalog.Worker.start 0 (seconds.toNat * 1000) }

end ProductSegments.Service
