import Homelab.DriftObservation

/-! `DeepEnumerator.enumerate` and `RefreshEngine.sweep` on the graph. -/
namespace Homelab
open Js

/-! ### Enumeration -/

/-- What comes of a platform, up to the upserts. -/
inductive Visit
  | noEnumerator
  | connectionFailed (message : JsString)
  | enumerationFailed (message : JsString)
  | enumerated (entities edges : List Fields)

structure PlatformVisit where
  platformId : JsString
  platformKind : JsString
  visit : Visit

structure PlatformSummary where
  platformId : JsString
  platformKind : JsString
  ok : Bool
  entitiesUpserted : ℕ
  edgesUpserted : ℕ
  error : Option JsString

/-- The records one after the other; one that is refused is left out. -/
def upsertAll (isDateTime : JsString → Bool) (part : GraphPart) :
    List Fields → GraphDocument → GraphDocument × ℕ
  | [], doc => (doc, 0)
  | record :: records, doc =>
    match callGraph isDateTime (part.op record) doc with
    | none => upsertAll isDateTime part records doc
    | some doc' =>
      let rest := upsertAll isDateTime part records doc'
      (rest.1, rest.2+1)

def failedSummary (p : PlatformVisit) (error : JsString) : PlatformSummary :=
  ⟨p.platformId, p.platformKind, false, 0, 0, some error⟩

def enumeratePlatform (isDateTime : JsString → Bool) (p : PlatformVisit) (doc : GraphDocument) :
    GraphDocument × PlatformSummary :=
  match p.visit with
  | .noEnumerator => (doc, failedSummary p
      (js "no enumerator registered for platform kind '" ++ p.platformKind ++ js "'"))
  | .connectionFailed message => (doc, failedSummary p (js "connection failed: " ++ message))
  | .enumerationFailed message => (doc, failedSummary p (js "enumeration failed: " ++ message))
  | .enumerated entities edges =>
    let withEntities := upsertAll isDateTime .entities entities doc
    let withEdges := upsertAll isDateTime .edges edges withEntities.1
    (withEdges.1, ⟨p.platformId, p.platformKind, true, withEntities.2, withEdges.2, none⟩)

/-- `platformFilter === undefined || platformFilter.includes(id)` -/
def passesFilter (platformFilter : Option (List JsString)) (id : JsString) : Bool :=
  platformFilter.all fun ids => ids.contains id

def enumeratePlatforms (isDateTime : JsString → Bool) :
    List PlatformVisit → GraphDocument → GraphDocument × List PlatformSummary
  | [], doc => (doc, [])
  | p :: ps, doc =>
    let first := enumeratePlatform isDateTime p doc
    let rest := enumeratePlatforms isDateTime ps first.1
    (rest.1, first.2 :: rest.2)

/-- `enumerate`, over the platforms that the filter lets pass -/
def enumerateGraph (isDateTime : JsString → Bool) (platformFilter : Option (List JsString))
    (platforms : List PlatformVisit) (doc : GraphDocument) : GraphDocument × List PlatformSummary :=
  enumeratePlatforms isDateTime
    (platforms.filter fun p => passesFilter platformFilter p.platformId) doc

/-! ### Reconciliation -/

structure RefreshThresholds where
  stalenessThresholdMs : JsNumber
  goneThresholdMs : JsNumber

def defaultThresholds : RefreshThresholds := ⟨.ofNat 300000, .ofNat 1800000⟩

/-- What the constructor makes of the thresholds that it is given. -/
def thresholdsOf (staleness gone : Option JsNumber) : RefreshThresholds :=
  ⟨staleness.getD defaultThresholds.stalenessThresholdMs, gone.getD defaultThresholds.goneThresholdMs⟩

/-- What the reconciliation of one sweep goes by. `dateMs` is `new Date(s).getTime()`. -/
structure Reconciliation where
  dateMs : JsString → Option ℤ
  thresholds : RefreshThresholds
  sweepMs : Option ℤ
  succeeded : List JsString

namespace Reconciliation

variable (R : Reconciliation)

def lastSeenMs (e : JsValue) : Option ℤ :=
  match property (js "last_seen") e with
  | .str s => R.dateMs s
  | _ => none

def age (e : JsValue) : JsNumber := .dateDiff R.sweepMs (R.lastSeenMs e)

/-- The status that a record gets by its age, if it gets one. -/
def degraded (e : JsValue) : Option JsString :=
  if R.thresholds.goneThresholdMs.le (R.age e) then some (js "gone")
  else if R.thresholds.stalenessThresholdMs.le (R.age e) && hasStatus (js "active") e then
    some (js "stale")
  else none

def entityVerdict (entity : JsValue) : Option JsString :=
  if !onPlatform R.succeeded entity then none
  else if hasStatus (js "gone") entity then none
  else R.degraded entity

/-- `entities.find((e) => e.id === edge[end])?.platformId` -/
def endPlatform (entities : List JsValue) (endpoint : JsString) (edge : JsValue) : JsValue :=
  match entities.find? (isId (property endpoint edge)) with
  | some e => property (js "platformId") e
  | none => .undefined

def edgePlatformId (entities : List JsValue) (edge : JsValue) : JsValue :=
  nullish (endPlatform entities (js "from") edge) (endPlatform entities (js "to") edge)

def edgeVerdict (entities : List JsValue) (edge : JsValue) : Option JsString :=
  if hasStatus (js "gone") edge then none
  else
    match edgePlatformId entities edge with
    | .str p => if p ∈ R.succeeded then R.degraded edge else none
    | _ => none

end Reconciliation

/-- The loop over the records of a snapshot that sets their statuses. -/
def setStatuses (isDateTime : JsString → Bool) (part : GraphPart) (verdict : JsValue → Option JsString) :
    List JsValue → GraphDocument → Option GraphDocument
  | [], doc => some doc
  | e :: es, doc =>
    match verdict e with
    | none => setStatuses isDateTime part verdict es doc
    | some status =>
      match callGraph isDateTime (part.op (withStatus e status)) doc with
      | none => none
      | some doc' => setStatuses isDateTime part verdict es doc'

/-- The third step of a sweep, on the graph that the enumeration has left; `none` when a write is
refused. -/
def reconcile (isDateTime : JsString → Bool) (R : Reconciliation) (current : GraphDocument) :
    Option GraphDocument :=
  (setStatuses isDateTime .entities R.entityVerdict current.entities current).bind
    (setStatuses isDateTime .edges (R.edgeVerdict current.entities) current.edges)

/-! ### A sweep -/

structure SweepRuntime where
  isDateTime : JsString → Bool
  dateMs : JsString → Option ℤ
  thresholds : RefreshThresholds

/-- What a sweep meets: the clock, the platforms, and which observations can be saved. -/
structure SweepInput where
  sweepAt : JsString
  platformFilter : Option (List JsString)
  platforms : List PlatformVisit
  saves : DriftObservation → Bool

structure SweepResult where
  sweepAt : JsString
  entitiesUpserted : ℕ
  edgesUpserted : ℕ
  platformsFailed : ℕ
  markedStale : ℕ
  markedGone : ℕ
  driftEvents : List DriftEvent
  observations : List DriftObservation

def succeededPlatformIds (summaries : List PlatformSummary) : List JsString :=
  (summaries.filter PlatformSummary.ok).map PlatformSummary.platformId

namespace SweepRuntime

variable (rt : SweepRuntime)

/-- The graph after the enumeration, and the summaries. -/
def enumerate (input : SweepInput) (prior : GraphDocument) : GraphDocument × List PlatformSummary :=
  enumerateGraph rt.isDateTime input.platformFilter input.platforms prior

def reconciliation (input : SweepInput) (summaries : List PlatformSummary) : Reconciliation :=
  ⟨rt.dateMs, rt.thresholds, rt.dateMs input.sweepAt, succeededPlatformIds summaries⟩

/-- A sweep, from the graph and the cache before it to those after it. -/
def sweep (input : SweepInput) (prior : GraphDocument) (cache : DedupCache) :
    Option (SweepResult × GraphDocument × DedupCache) :=
  let (current, summaries) := rt.enumerate input prior
  let R := rt.reconciliation input summaries
  (reconcile rt.isDateTime R current).map fun post =>
    let driftEvents := computeDiff prior.entities post.entities R.succeeded
    let (observations, cache) := emitDrift input.saves input.sweepAt R.sweepMs driftEvents cache
    let counted := summaries.filter PlatformSummary.ok
    ({ sweepAt := input.sweepAt
       entitiesUpserted := (counted.map PlatformSummary.entitiesUpserted).sum
       edgesUpserted := (counted.map PlatformSummary.edgesUpserted).sum
       platformsFailed := summaries.countP fun summary => !summary.ok
       markedStale := current.entities.countP fun e => R.entityVerdict e = some (js "stale")
       markedGone := current.entities.countP fun e => R.entityVerdict e = some (js "gone")
       driftEvents
       observations }, post, cache)

end SweepRuntime

end Homelab
