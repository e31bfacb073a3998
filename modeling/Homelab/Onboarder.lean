import Homelab.GrafanaRegistry

/-! `ObservabilityOnboarder.onboard`: the three checks of a service, and the observations of what is missing. The
checks share no state, so here one comes after the other. -/
namespace Homelab
open Js Dialogue

/-! ### Metrics -/

section Metrics

variable (rt : ObservabilityRuntime)

def entityMetricsSignals (e : ServiceEntity) : List JsString :=
  distinctSignals rt (e.name ::
    [js "service", js "job", js "app", js "label_service", js "label_job", js "label_app"].flatMap fun key =>
      textSignal (e.attribute key))

def candidateKeys : List JsString := [js "job", js "instance", js "__address__", js "app", js "service"]

/-- Whether a target matches; a target that is `null` throws. -/
def targetMatchesEntity (signals : List JsString) (target : JsValue) : Except JsString Bool := do
  let discovered := ownEntries (← readProperty target (js "discoveredLabels"))
  let labels := ownEntries (property (js "labels") target)
  let allLabels := spread discovered labels
  let candidates := (candidateKeys.flatMap fun key => textSignal (getOwn key allLabels)).map rt.toLowerCase
  pure (signals.any fun signal => candidates.any fun v => includes signal v || includes v signal)

/-- `targets.some(...)` -/
def anyTarget (signals : List JsString) : List JsValue → Except JsString Bool
  | [] => .ok false
  | t :: ts => do
    if ← targetMatchesEntity rt signals t then pure true else anyTarget signals ts

/-- The active targets of an answer of success -/
def answeredTargets (answer : Except JsString HttpResponse) : Option (List JsValue) := do
  let body ← answeredBody answer
  match property (js "status") body, property (js "activeTargets") (property (js "data") body) with
  | .str status, .arr targets => if status = js "success" then some targets else none
  | _, _ => none

/-- `some true` if the entity is scraped, `some false` if it is not found, `none` if this cannot be told. -/
def checkMetricsScraping (e : ServiceEntity) (promBase : JsString) : Check (Option Bool) := do
  let answer ← inquire (.prometheus (stripSlash promBase ++ js "/api/v1/targets"))
  match answeredTargets answer with
  | none => pure none
  | some targets =>
    let signals := entityMetricsSignals rt e
    if signals = [] then pure (some false)
    else do
      let scraped ← give (anyTarget rt signals targets)
      pure (some scraped)

end Metrics

def buildMetricsProposal (e : ServiceEntity) : Option JsString :=
  let host := e.textAttribute (js "host")
  let target := match e.attribute (js "port"), e.attribute (js "metrics_port") with
    | .num port, _ => host ++ js ":" ++ port.toText
    | _, .num port => host ++ js ":" ++ port.toText
    | _, _ => host
  if host = [] then none
  else some (js "# Add to Prometheus file-SD config (e.g. /etc/prometheus/targets/" ++ e.name ++ js ".json):\n" ++
    js "[\x7b \"targets\": [\"" ++ target ++ js "\"], \"labels\": \x7b \"job\": \"" ++ e.name ++ js "\" \x7d \x7d]")

/-! ### Reports -/

inductive ChannelStatus
  | wired
  | gap
  | unknown
  | checkFailed
deriving DecidableEq

structure ChannelResult where
  channel : OnboardingChannel
  status : ChannelStatus
  detail : Option JsString

structure OnboardingReport where
  entityId : JsString
  entityName : JsString
  channels : List ChannelResult
  observations : List Observation
  checkedAt : JsString

/-- The onboarder with the services that it has been given; `graphStore` says whether it has a graph to discover
Prometheus in. -/
structure ObservabilityOnboarder where
  prometheusEndpointUrl : Option JsString
  graphStore : Bool
  logsService : Option LogsService
  grafanaRegistry : Option GrafanaRegistry
  platformId : JsString

/-- What is kept from one call to the next: the base URL of Prometheus, once it has been looked up, and the
cache of the registry -/
structure OnboarderCache where
  prometheusBase : Option (Option JsString)
  grafana : GrafanaCache

def OnboarderCache.empty : OnboarderCache := ⟨none, .empty⟩

namespace ObservabilityOnboarder

variable (rt : ObservabilityRuntime) (o : ObservabilityOnboarder)

def resolvePrometheusBase (cached : Option (Option JsString)) : Check (Option JsString) :=
  resolveBase .metrics o.prometheusEndpointUrl o.graphStore (discoverPrometheusEndpoint rt.toLowerCase) cached

/-- The result, and the base URL that is kept -/
def checkMetricsChannel (cached : Option (Option JsString)) (e : ServiceEntity) :
    Check (ChannelResult × Option JsString) := do
  let promBase ← o.resolvePrometheusBase rt cached
  match promBase with
  | none => pure (⟨.metrics, .unknown, some (js "Prometheus endpoint not discoverable from graph")⟩, promBase)
  | some base =>
    match ← (checkMetricsScraping rt e base).attempt with
    | .error message => pure (⟨.metrics, .checkFailed, some message⟩, promBase)
    | .ok none =>
      pure (⟨.metrics, .unknown, some (js "Prometheus targets endpoint returned unexpected data")⟩, promBase)
    | .ok (some true) => pure (⟨.metrics, .wired, none⟩, promBase)
    | .ok (some false) =>
      let missing := js "Entity '" ++ e.name ++ js "' not found in Prometheus targets."
      pure (⟨.metrics, .gap, some (match buildMetricsProposal e with
        | some proposal => missing ++ js " " ++ proposal
        | none => missing)⟩, promBase)

def logsQuery (e : ServiceEntity) : LogQuery := ⟨none, some e.name, some (js "1h"), none, some (.ofNat 1), none⟩

def checkLogsChannel (e : ServiceEntity) : Check ChannelResult :=
  match o.logsService with
  | none => pure ⟨.logs, .unknown, some (js "LogsService not configured")⟩
  | some service => do
    let result ← service.query rt (logsQuery e)
    pure (
      if result.backends .loki = .noEndpoint ∧ result.backends .opensearch = .noEndpoint then
        ⟨.logs, .unknown, some (js "No log backends discovered")⟩
      else if result.entries ≠ [] then ⟨.logs, .wired, none⟩
      else ⟨.logs, .gap, some (js "No log entries found for service '" ++ e.name ++
        js "' in the last hour. Ensure log labels include the service name.")⟩)

/-- What is proposed for an entity without a dashboard -/
def dashboardProposal (e : ServiceEntity) : JsString :=
  let role := match e.attribute (js "role") with
    | .str role => role
    | _ => js "generic"
  js "Create a Grafana dashboard for role '" ++ role ++ js "' services with " ++
    js "var-service template variable and tag it '" ++ e.name ++ js "' or '" ++ role ++ js "' " ++
    js "so the resolver can match it automatically."

/-- What the dashboards of the catalogue mean for the entity -/
def dashboardsResult (base : JsString) (e : ServiceEntity) (dashboards : List GrafanaDashboard) :
    ChannelResult :=
  match dashboardLinks rt base e dashboards with
  | .error message => ⟨.dashboards, .checkFailed, some message⟩
  | .ok [] => ⟨.dashboards, .gap, some (js "No Grafana dashboard matched entity '" ++ e.name ++ js "'. " ++
      dashboardProposal e)⟩
  | .ok (_ :: _) => ⟨.dashboards, .wired, none⟩

/-- The result, and the cache that is kept -/
def checkDashboardsChannel (cache : GrafanaCache) (e : ServiceEntity) :
    Check (ChannelResult × GrafanaCache) :=
  match o.grafanaRegistry with
  | none => pure (⟨.dashboards, .unknown, some (js "GrafanaRegistry not configured")⟩, cache)
  | some registry => do
    match ← registry.resolveEndpoint rt cache with
    | none => pure (⟨.dashboards, .unknown, some (js "Grafana endpoint not discoverable from graph")⟩,
        { cache with resolvedBase := some none })
    | some base =>
      let dashboards ← registry.fetchDashboards base cache
      pure (dashboardsResult rt base e dashboards, ⟨some (some base), some dashboards⟩)

/-! ### Observations -/

def channelText : OnboardingChannel → JsString
  | .metrics => js "metrics"
  | .logs => js "logs"
  | .dashboards => js "dashboards"

def gapPattern : JsString := js "observability_gap"

def gapResource (e : ServiceEntity) (channel : OnboardingChannel) : JsString :=
  js "entity/" ++ e.id ++ js "/" ++ channelText channel

def buildGapObservation (e : ServiceEntity) (r : ChannelResult) (id checkedAt : JsString) : Observation where
  id
  platform := o.platformId
  pattern := gapPattern
  resource := gapResource e r.channel
  severity := .p2
  discoveredAt := checkedAt
  details := some ([(js "entityId", .str e.id), (js "entityName", .str e.name),
    (js "channel", .str (channelText r.channel))] ++
    (match r.detail with
      | some detail => [(js "proposal", .str detail)]
      | none => []) ++
    (textSignal (e.attribute (js "role"))).map fun role => (js "role", .str role))
  dedupKey := some (keyText o.platformId gapPattern (gapResource e r.channel))

/-- One observation for each gap -/
def gapObservations (e : ServiceEntity) (checkedAt : JsString) : List ChannelResult → Check (List Observation)
  | [] => pure []
  | r :: rs =>
    if r.status = .gap then do
      let id ← inquire .randomUuid
      let rest ← gapObservations e checkedAt rs
      pure (o.buildGapObservation e r id checkedAt :: rest)
    else gapObservations e checkedAt rs

def onboard (cache : OnboarderCache) (e : ServiceEntity) : Check (OnboardingReport × OnboarderCache) := do
  let checkedAt ← inquire .clock
  let (metrics, prometheusBase) ← o.checkMetricsChannel rt cache.prometheusBase e
  let logs ← o.checkLogsChannel rt e
  let (dashboards, grafana) ← o.checkDashboardsChannel rt cache.grafana e
  let channels := [metrics, logs, dashboards]
  let observations ← o.gapObservations e checkedAt channels
  pure (⟨e.id, e.name, channels, observations, checkedAt⟩, ⟨some prometheusBase, grafana⟩)

end ObservabilityOnboarder

end Homelab
