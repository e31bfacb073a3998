import Homelab.Collector
import Homelab.RoleCatalog

/-! The scans of three probes: the alerts that fire, how full the storage is, and the health of the
datastores. -/
namespace Homelab
open Js

/-! ### Findings -/

inductive DatastoreSignal
  | liveness
  | replication
  | connections
  | memory
  | disk
deriving DecidableEq

/-- What has gone wrong: an alert of a name, an entity that fills up, or a signal of a datastore -/
inductive Fault
  | alert (name : JsString)
  | capacity (id : JsString)
  | datastore (id : JsString) (signal : DatastoreSignal)
  | unreachable
deriving DecidableEq

/-- What a probe makes an observation of -/
structure Finding where
  fault : Fault
  pattern : JsString
  resource : JsString
  severity : Severity
  details : Fields

/-- `makeObservation`, with the random id and the date that it stamps -/
def makeObservation (platform id discoveredAt : JsString) (f : Finding) : Observation where
  id
  platform
  pattern := f.pattern
  resource := f.resource
  severity := f.severity
  discoveredAt
  details := some f.details
  dedupKey := some (keyText platform f.pattern f.resource)

def textOf (k : JsString) (e : JsValue) : JsString := (property k e).coerce

/-! ### Alerts -/

abbrev Labels := List (JsString × JsString)

/-- An alert of either interface: `state` is `status.state` or `state`. -/
structure Alert where
  labels : Option Labels
  annotations : Option Labels
  state : Option JsString
  startsAt : Option JsString
  generatorURL : Option JsString
  activeAt : Option JsString

def alertSeverity (rt : TextRuntime) : Option JsString → Severity
  | none => .p2
  | some label =>
    if rt.toLowerCase label = js "critical" then .p0
    else if rt.toLowerCase label = js "warning" then .p1
    else .p2

def resourceLabelPriority : List JsString := [js "instance", js "pod", js "service", js "job"]

/-- The first of these labels that is not empty -/
def alertSource (labels : Labels) : Option (JsString × JsString) :=
  resourceLabelPriority.findSome? fun key =>
    ((labels.lookup key).filter fun val => val ≠ []).map fun val => (key, val)

/-- The label `alertname`, or `unknown` where there is none or it is empty -/
def shownName (labels : Labels) : JsString :=
  ((labels.lookup (js "alertname")).filter fun name => name ≠ []).getD (js "unknown")

def alertResource : Option Labels → JsString
  | none => js "alert/unknown"
  | some labels =>
    match alertSource labels with
    | some (key, val) => key ++ js "/" ++ val
    | none => js "alert/" ++ shownName labels

/-- `labels?.['alertname'] ?? 'unknown'` -/
def alertName (labels : Option Labels) : JsString :=
  (labels.bind fun labels => labels.lookup (js "alertname")).getD (js "unknown")

def textOrUndefined : Option JsString → JsValue
  | none => .undefined
  | some s => .str s

def labelFields (labels : Option Labels) : Fields := (labels.getD []).map fun label => (label.1, .str label.2)

def alertFinding (rt : TextRuntime) (times : Alert → Fields) (alert : Alert) : Finding where
  fault := .alert (alertName alert.labels)
  pattern := js "prometheus_alert"
  resource := alertResource alert.labels
  severity := alertSeverity rt (alert.labels.bind fun labels => labels.lookup (js "severity"))
  details := [(js "alertname", .str (alertName alert.labels)), (js "labels", .obj (labelFields alert.labels)),
    (js "annotations", .obj (labelFields alert.annotations))] ++ times alert

/-- The alerts that have no state but this one -/
def firing (state : JsString) (alerts : List Alert) : List Alert :=
  alerts.filter fun alert => alert.state.all (· = state)

def mapAlertmanagerAlerts (rt : TextRuntime) (alerts : List Alert) : List Finding :=
  (firing (js "active") alerts).map (alertFinding rt fun alert =>
    [(js "startsAt", textOrUndefined alert.startsAt),
    (js "generatorURL", textOrUndefined alert.generatorURL)])

def mapPrometheusAlerts (rt : TextRuntime) (alerts : List Alert) : List Finding :=
  (firing (js "firing") alerts).map (alertFinding rt fun alert =>
    [(js "activeAt", textOrUndefined alert.activeAt)])

inductive AlertApi
  | alertmanager
  | prometheus

def AlertApi.state : AlertApi → JsString
  | .alertmanager => js "active"
  | .prometheus => js "firing"

/-- `scan` of the alert probe, from the alerts that the endpoint returns on; there are none when it
cannot be found or does not answer with a list. -/
def scanAlerts (rt : TextRuntime) (api : AlertApi) (answer : Option (List Alert)) : List Finding :=
  match api with
  | .alertmanager => mapAlertmanagerAlerts rt (answer.getD [])
  | .prometheus => mapPrometheusAlerts rt (answer.getD [])

/-! ### Capacity -/

/-- The arithmetic of doubles -/
structure Arithmetic where
  sub : JsNumber → JsNumber → JsNumber
  mul : JsNumber → JsNumber → JsNumber
  div : JsNumber → JsNumber → JsNumber
  round : JsNumber → JsNumber

structure CapacitySample where
  usedBytes : JsNumber
  totalBytes : JsNumber
  sampledAt : ℤ

structure CapacityOptions where
  warnThreshold : JsNumber
  criticalThreshold : JsNumber
  growthWindowSeconds : JsNumber

/-- What the constructor makes of its options -/
def capacityOptions (warn critical growth : Option JsNumber) : CapacityOptions where
  warnThreshold := warn.getD (.ofScaledInt 80 2)
  criticalThreshold := critical.getD (.ofScaledInt 90 2)
  growthWindowSeconds := growth.getD (.ofNat 604800)

def capacityKinds : List JsString :=
  [js "storage-array", js "storage-disk", js "share", js "datastore", js "pool"]

inductive CapacityPattern
  | critical
  | warning
  | growth
deriving DecidableEq

def CapacityPattern.text : CapacityPattern → JsString
  | .critical => js "capacity_critical"
  | .warning => js "capacity_warning"
  | .growth => js "capacity_growth"

def CapacityPattern.severity : CapacityPattern → Severity
  | .critical => .p0
  | .warning => .p1
  | .growth => .p1

namespace CapacitySample

variable (a : Arithmetic) (opts : CapacityOptions) (prev : Option CapacitySample) (sample : CapacitySample)

def fillRatio : JsNumber := a.div sample.usedBytes sample.totalBytes

/-- The seconds since the sample before, when there is one and time has passed -/
def elapsed : Option (CapacitySample × JsNumber) :=
  (prev.map fun prev => (prev, a.div (.ofScaledInt (sample.sampledAt-prev.sampledAt) 0) (.ofNat 1000))).filter
    fun p => (JsNumber.ofNat 0).lt p.2

def fillRateBytesPerSecond : Option JsNumber :=
  (sample.elapsed a prev).map fun (prev, dtSeconds) => a.div (a.sub sample.usedBytes prev.usedBytes) dtSeconds

def secondsToFull : Option JsNumber :=
  ((sample.fillRateBytesPerSecond a prev).filter fun rate =>
      (JsNumber.ofNat 0).lt rate && (JsNumber.ofNat 0).le (a.sub sample.totalBytes sample.usedBytes)).map
    fun rate => a.div (a.sub sample.totalBytes sample.usedBytes) rate

/-- What a sample is reported as: the first of the three that holds -/
def pattern : Option CapacityPattern :=
  if opts.criticalThreshold.le (sample.fillRatio a) then some .critical
  else if opts.warnThreshold.le (sample.fillRatio a) then some .warning
  else if (sample.secondsToFull a prev).any fun seconds =>
      (JsNumber.ofNat 0).lt seconds && seconds.le opts.growthWindowSeconds then some .growth
  else none

end CapacitySample

def numberOrNull : Option JsNumber → JsValue
  | none => .null
  | some x => .num x

section Capacity

variable (a : Arithmetic) (opts : CapacityOptions)

def percent (x : JsNumber) : JsValue := .num (a.round (a.mul x (.ofNat 100)))

def days (seconds : JsNumber) : JsNumber := a.round (a.div seconds (.ofNat 86400))

def capacityDetails (prev : Option CapacitySample) (sample : CapacitySample) (entity : JsValue)
    (pattern : CapacityPattern) : Fields :=
  let rate := numberOrNull (sample.fillRateBytesPerSecond a prev)
  let seconds := sample.secondsToFull a prev
  [(js "kind", property (js "kind") entity), (js "entity_id", property (js "id") entity),
    (js "used_bytes", .num sample.usedBytes), (js "total_bytes", .num sample.totalBytes),
    (js "used_pct", percent a (sample.fillRatio a))] ++
  match pattern with
  | .critical => [(js "threshold_pct", percent a opts.criticalThreshold),
      (js "fill_rate_bytes_per_second", rate), (js "days_to_full", numberOrNull (seconds.map (days a)))]
  | .warning => [(js "threshold_pct", percent a opts.warnThreshold),
      (js "fill_rate_bytes_per_second", rate), (js "days_to_full", numberOrNull (seconds.map (days a)))]
  | .growth => [(js "fill_rate_bytes_per_second", rate),
      (js "seconds_to_full", numberOrNull (seconds.map a.round)),
      (js "days_to_full", numberOrNull (seconds.map (days a))),
      (js "growth_window_days", .num (days a opts.growthWindowSeconds))]

def capacityFinding (prev : Option CapacitySample) (sample : CapacitySample) (entity : JsValue)
    (pattern : CapacityPattern) : Finding where
  fault := .capacity (textOf (js "id") entity)
  pattern := pattern.text
  resource := textOf (js "kind") entity ++ js "/" ++ textOf (js "name") entity
  severity := pattern.severity
  details := capacityDetails a opts prev sample entity pattern

/-- The samples that the probe remembers, by the ids of the entities -/
abbrev LastSamples := List (JsString × CapacitySample)

/-- `probeEntity` of the capacity probe, with the sample that it collects, if it can -/
def probeCapacity (sample : Option CapacitySample) (entity : JsValue) (lastSamples : LastSamples) :
    Option Finding × LastSamples :=
  match sample with
  | none => (none, lastSamples)
  | some sample =>
    let id := textOf (js "id") entity
    let prev := lastSamples.lookup id
    ((sample.pattern a opts prev).map (capacityFinding a opts prev sample entity),
      (id, sample) :: lastSamples.filter fun last => last.1 ≠ id)

/-- The loop over the entities -/
def probeCapacities (samples : JsValue → Option CapacitySample) :
    List JsValue → LastSamples → List Finding × LastSamples
  | [], lastSamples => ([], lastSamples)
  | entity :: entities, lastSamples =>
    let (finding, lastSamples) := probeCapacity a opts (samples entity) entity lastSamples
    let rest := probeCapacities samples entities lastSamples
    (finding.toList ++ rest.1, rest.2)

def enumerateCapacityEntities (doc : GraphDocument) : List JsValue :=
  capacityKinds.flatMap fun kind => entitiesByKind kind doc

/-- `scan` of the capacity probe -/
def scanCapacity (samples : JsValue → Option CapacitySample) (doc : GraphDocument)
    (lastSamples : LastSamples) : List Finding × LastSamples :=
  probeCapacities a opts samples (enumerateCapacityEntities doc) lastSamples

end Capacity

/-! ### Health of datastores -/

structure EngineHealthSignals where
  alive : Bool
  connections : JsNumber
  maxConnections : JsNumber
  replicationRole : JsString
  replicationLagSeconds : JsNumber
  diskUsedBytes : JsNumber
  diskLimitBytes : JsNumber
  memoryUsedBytes : JsNumber
  memoryLimitBytes : JsNumber

def DatastoreSignal.pattern : DatastoreSignal → JsString
  | .liveness => js "datastore_unhealthy"
  | .replication => js "replication_lag"
  | .connections => js "datastore_near_capacity"
  | .memory => js "datastore_near_capacity"
  | .disk => js "datastore_disk_pressure"

def DatastoreSignal.severity : DatastoreSignal → Severity
  | .liveness => .p0
  | .replication => .p1
  | .connections => .p1
  | .memory => .p1
  | .disk => .p0

section Datastores

variable (a : Arithmetic)

/-- Both values can be measured, and the first is at 85 % of the second. -/
def saturated (used limit : JsNumber) : Bool :=
  (JsNumber.ofNat 0).le used && (JsNumber.ofNat 0).lt limit &&
    (JsNumber.ofScaledInt 85 2).le (a.div used limit)

namespace EngineHealthSignals

variable (signals : EngineHealthSignals)

def raises : DatastoreSignal → Bool
  | .liveness => !signals.alive
  | .replication => signals.replicationRole = js "replica" &&
      (JsNumber.ofNat 0).le signals.replicationLagSeconds &&
      (JsNumber.ofNat 30).lt signals.replicationLagSeconds
  | .connections => saturated a signals.connections signals.maxConnections
  | .memory => saturated a signals.memoryUsedBytes signals.memoryLimitBytes
  | .disk => saturated a signals.diskUsedBytes signals.diskLimitBytes

/-- The signals that are reported; when a datastore is down, the others are not looked at. -/
def reported : List DatastoreSignal :=
  if signals.alive then
    [.replication, .connections, .memory, .disk].filter (signals.raises a)
  else [.liveness]

def saturation (used limit : JsNumber) : JsValue := .num (a.round (a.mul (a.div used limit) (.ofNat 100)))

def details (entity : JsValue) : DatastoreSignal → Fields
  | .liveness => [(js "entity_id", property (js "id") entity)]
  | .replication => [(js "lag_seconds", .num signals.replicationLagSeconds),
      (js "threshold_seconds", .num (.ofNat 30))]
  | .connections => [(js "connections", .num signals.connections),
      (js "max_connections", .num signals.maxConnections),
      (js "saturation", saturation a signals.connections signals.maxConnections)]
  | .memory => [(js "memory_used_bytes", .num signals.memoryUsedBytes),
      (js "memory_limit_bytes", .num signals.memoryLimitBytes),
      (js "saturation", saturation a signals.memoryUsedBytes signals.memoryLimitBytes)]
  | .disk => [(js "disk_used_bytes", .num signals.diskUsedBytes),
      (js "disk_limit_bytes", .num signals.diskLimitBytes),
      (js "saturation", saturation a signals.diskUsedBytes signals.diskLimitBytes)]

end EngineHealthSignals

def datastoreFinding (signals : EngineHealthSignals) (entity : JsValue) (signal : DatastoreSignal) :
    Finding where
  fault := .datastore (textOf (js "id") entity) signal
  pattern := signal.pattern
  resource := js "datastore/" ++ textOf (js "name") entity
  severity := signal.severity
  details := (js "engine", nullish (attributeOf (js "engine") entity) (.str (js "unknown"))) ::
    signals.details a entity signal

/-- `probeEntity` of the datastore probe, with the signals that it measures, where an engine has a probe -/
def probeDatastore (signals : Option EngineHealthSignals) (entity : JsValue) : List Finding :=
  match signals with
  | none => []
  | some signals => (signals.reported a).map (datastoreFinding a signals entity)

def unreachable (platform error : JsString) : Finding where
  fault := .unreachable
  pattern := js "daemon_heartbeat_stale"
  resource := js "graph/" ++ platform
  severity := .p0
  details := [(js "error", .str error), (js "probe", .str (js "datastore-health")),
    (js "reason", .str (js "platform_unreachable"))]

/-- `scan` of the datastore probe: of the graph, or of the error with which it cannot be read -/
def scanDatastores (platform : JsString) (signals : JsValue → Option EngineHealthSignals) :
    Except JsString GraphDocument → List Finding
  | .error error => [unreachable platform error]
  | .ok doc => (entitiesByKind (js "datastore") doc).flatMap fun entity =>
    probeDatastore a (signals entity) entity

end Datastores

end Homelab
