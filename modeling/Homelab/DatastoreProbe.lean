import Homelab.DiscoveryTimes
import Homelab.ProbeScans

/-! `DatastoreProbe.probe`: the datastores that are found among the entities of the graph, what their
engines say of them, and the entities and edges that are written back. -/
namespace Homelab
open Js

/-! ### Engines -/

/-- An engine, and what its images are called -/
structure EngineProbe where
  engine : JsString
  images : List JsString

/-- The registry, once the built-in engines have been registered -/
def engineProbeRegistry : List EngineProbe :=
  [⟨js "postgres", [js "postgres", js "postgresql", js "timescaledb", js "pgvector"]⟩,
   ⟨js "redis", [js "redis", js "valkey", js "dragonfly", js "keydb"]⟩,
   ⟨js "opensearch", [js "opensearch", js "elasticsearch"]⟩,
   ⟨js "neo4j", [js "neo4j"]⟩]

def imageContains (toLowerCase : JsString → JsString) (entity : JsValue)
    (substrings : List JsString) : Bool :=
  match attributeOf (js "image") entity with
  | .str image => toLowerCase image ≠ [] &&
      substrings.any fun s => includes (toLowerCase s) (toLowerCase image)
  | _ => false

def findEngineProbe (toLowerCase : JsString → JsString) (entity : JsValue) : Option EngineProbe :=
  engineProbeRegistry.find? fun probe => imageContains toLowerCase entity probe.images

structure DatastoreChild where
  name : JsString
  sizeBytes : JsNumber
  count : JsNumber

structure DatastoreIntrospection where
  engine : JsString
  version : JsString
  health : JsString
  children : List DatastoreChild
  replicationRole : Option JsString
  replicationLagSeconds : Option JsNumber

/-- Nothing is known but the engine. -/
def unknownDatastore (engine : JsString) : DatastoreIntrospection :=
  ⟨engine, js "unknown", js "unknown", [], none, none⟩

/-! ### Records -/

def datastoreId (source : JsValue) : JsString :=
  js "datastore:" ++ (nullish (property (js "platformId") source) (.str (js "unknown"))).coerce ++ js ":" ++
    textOf (js "name") source

def buildDatastoreEntity (now : JsString) (source : JsValue) (introspection : DatastoreIntrospection) :
    Fields :=
  [(js "id", .str (datastoreId source)), (js "kind", .str (js "datastore")),
    (js "name", property (js "name") source),
    (js "attributes", .obj ([(js "engine", .str introspection.engine),
      (js "version", .str introspection.version), (js "health", .str introspection.health),
      (js "source_entity_id", property (js "id") source),
      (js "source_image", nullish (attributeOf (js "image") source) (.str []))] ++
      (introspection.replicationRole.toList.map fun role => (js "replication_role", .str role)) ++
      introspection.replicationLagSeconds.toList.map fun lag => (js "replication_lag_seconds", .num lag))),
    (js "source", .str (js "datastore-probe")), (js "platformId", property (js "platformId") source),
    (js "discovered_at", property (js "discovered_at") source), (js "last_seen", .str now),
    (js "status", .str (js "active"))]

def childId (datastoreEntityId : JsString) (child : DatastoreChild) : JsString :=
  js "database:" ++ datastoreEntityId ++ js ":" ++ child.name

def buildChildEntity (now datastoreEntityId : JsString) (source : JsValue)
    (child : DatastoreChild) : Fields :=
  [(js "id", .str (childId datastoreEntityId child)), (js "kind", .str (js "database")),
    (js "name", .str child.name),
    (js "attributes", .obj [(js "size_bytes", .num child.sizeBytes), (js "count", .num child.count)]),
    (js "source", .str (js "datastore-probe")), (js "platformId", property (js "platformId") source),
    (js "discovered_at", .str now), (js "last_seen", .str now), (js "status", .str (js "active"))]

def memberEdge (now childEntityId datastoreEntityId : JsString) : Fields :=
  [(js "id", .str (js "member-of:" ++ childEntityId ++ js ":" ++ datastoreEntityId)),
    (js "from", .str childEntityId), (js "to", .str datastoreEntityId), (js "type", .str (js "member-of")),
    (js "discovered_at", .str now), (js "last_seen", .str now), (js "status", .str (js "active"))]

/-! ### The probe -/

/-- The time of a run, and what the engine of an entity says of it once there is a connection -/
structure DatastoreRun where
  now : JsString
  introspect : JsValue → Option DatastoreIntrospection

def findCandidates (toLowerCase : JsString → JsString) (doc : GraphDocument) : List JsValue :=
  doc.entities.filter fun entity =>
    [js "database", js "cache"].any (fun role => equalsText role (attributeOf (js "role") entity)) ||
      (findEngineProbe toLowerCase entity).isSome

namespace DatastoreRun

variable (run : DatastoreRun) (toLowerCase : JsString → JsString) (source : JsValue)

/-- What is recorded of a candidate -/
def introspection : DatastoreIntrospection :=
  match findEngineProbe toLowerCase source with
  | none => unknownDatastore (js "generic")
  | some probe => (run.introspect source).getD (unknownDatastore probe.engine)

def childCalls (child : DatastoreChild) : List UpsertCall :=
  [⟨.entities, buildChildEntity run.now (datastoreId source) source child⟩,
    ⟨.edges, memberEdge run.now (childId (datastoreId source) child) (datastoreId source)⟩]

/-- The upserts for a candidate -/
def candidateCalls : List UpsertCall :=
  ⟨.entities, buildDatastoreEntity run.now source (run.introspection toLowerCase source)⟩ ::
    (run.introspection toLowerCase source).children.flatMap (run.childCalls source)

/-- The upserts of the run, in the order in which they are made -/
def calls (doc : GraphDocument) : List UpsertCall :=
  (findCandidates toLowerCase doc).flatMap (run.candidateCalls toLowerCase)

end DatastoreRun

/-- The calls that are made, which end at one that is refused -/
def madeCalls (isDateTime : JsString → Bool) : List UpsertCall → GraphDocument → List UpsertCall
  | [], _ => []
  | c :: cs, doc =>
    match c.run isDateTime doc with
    | none => []
    | some doc' => c :: madeCalls isDateTime cs doc'

structure DatastoreProbeResult where
  discovered : ℕ
  introspected : ℕ
  skipped : ℕ
  results : List (List UpsertCall)

namespace DatastoreRun

variable (run : DatastoreRun) (toLowerCase : JsString → JsString)

/-- The datastore has not been introspected. -/
def skips (source : JsValue) : Bool :=
  (run.introspection toLowerCase source).health = js "unknown" ||
    (findEngineProbe toLowerCase source).isNone || (run.introspect source).isNone

def result (doc : GraphDocument) : DatastoreProbeResult where
  discovered := (findCandidates toLowerCase doc).length
  introspected := (findCandidates toLowerCase doc).countP fun source => !run.skips toLowerCase source
  skipped := (findCandidates toLowerCase doc).countP (run.skips toLowerCase)
  results := (findCandidates toLowerCase doc).map (run.candidateCalls toLowerCase)

/-- `probe`: it throws when an upsert is refused. -/
def probe (isDateTime : JsString → Bool) (doc : GraphDocument) :
    Option DatastoreProbeResult × GraphDocument :=
  let made := madeCalls isDateTime (run.calls toLowerCase doc) doc
  (if made.length = (run.calls toLowerCase doc).length then some (run.result toLowerCase doc) else none,
    afterCalls isDateTime made doc)

end DatastoreRun

end Homelab
