import Homelab.GraphCalls
import Homelab.JsCompare

/-! What a sweep reports: the drift between two states of the graph, the observations that are made of
it, and the cache that holds repeated ones back. Observations as the probes and the sweeps make them, the store
that lists them and the key by which repeated ones are held back. -/
namespace Homelab
open Js

/-! ### Drift -/

inductive DriftEvent
  | entityAdded (entity : JsValue)
  | entityGone (entity : JsValue)
  | replicaMismatch (entity : JsValue) (replicasRunning replicasDesired : JsNumber)
  | imageChanged (entity : JsValue) (previousImage currentImage : JsString)

def DriftEvent.entity : DriftEvent → JsValue
  | .entityAdded entity => entity
  | .entityGone entity => entity
  | .replicaMismatch entity .. => entity
  | .imageChanged entity .. => entity

/-- `v === s` -/
def equalsText (s : JsString) : JsValue → Bool
  | .str t => t = s
  | _ => false

/-- The record is of a platform, and the platform is one of those. -/
def onPlatform (platforms : List JsString) (e : JsValue) : Bool :=
  match property (js "platformId") e with
  | .str p => p ∈ platforms
  | _ => false

/-- `status === status'` -/
def hasStatus (status : JsString) (e : JsValue) : Bool := equalsText status (property (js "status") e)

def attributeOf (k : JsString) (e : JsValue) : JsValue := property k (property (js "attributes") e)

def goneDrift (prior entity : JsValue) : List DriftEvent :=
  if hasStatus (js "gone") entity && !hasStatus (js "gone") prior then [.entityGone entity] else []

def replicaDrift (entity : JsValue) : List DriftEvent :=
  match attributeOf (js "replicas_running") entity, attributeOf (js "replicas_desired") entity with
  | .num running, .num desired =>
    if running.lt desired then [.replicaMismatch entity running desired] else []
  | _, _ => []

def imageDrift (prior entity : JsValue) : List DriftEvent :=
  match attributeOf (js "image") entity, attributeOf (js "image") prior with
  | .str current, .str previous =>
    if current ≠ previous then [.imageChanged entity previous current] else []
  | _, _ => []

def diffEntity (prior : Option JsValue) (entity : JsValue) : List DriftEvent :=
  match prior with
  | none => [.entityAdded entity]
  | some prior => goneDrift prior entity ++ replicaDrift entity ++ imageDrift prior entity

/-- `priorById.get(id)`: of several records of one id the map has the last. -/
def priorById (entities : List JsValue) (id : JsValue) : Option JsValue :=
  entities.reverse.find? (isId id)

def computeDiff (prior post : List JsValue) (succeeded : List JsString) : List DriftEvent :=
  post.flatMap fun entity =>
    if onPlatform succeeded entity then
      diffEntity (priorById prior (property (js "id") entity)) entity
    else []

/-! ### Observations -/

inductive DriftPattern
  | entityGone
  | replicaMismatch
  | imageChanged
deriving DecidableEq

def DriftPattern.text : DriftPattern → JsString
  | .entityGone => js "entity_gone"
  | .replicaMismatch => js "replica_mismatch"
  | .imageChanged => js "image_changed"

inductive Severity
  | p0
  | p1
  | p2
deriving DecidableEq

/-- An `Observation`, but for its random id. -/
structure DriftObservation where
  platform : JsString
  pattern : DriftPattern
  resource : JsString
  severity : Severity
  discoveredAt : JsString
  details : Fields
  dedupKey : JsString

/-- The observation of an entity: its platform, or `unknown`, its pattern and `kind/id`. -/
def observationOf (entity : JsValue) (pattern : DriftPattern) (severity : Severity)
    (discoveredAt : JsString) (details : Fields) : DriftObservation :=
  let platform := (nullish (property (js "platformId") entity) (.str (js "unknown"))).coerce
  let resource := (property (js "kind") entity).coerce ++ js "/" ++ (property (js "id") entity).coerce
  { platform
    pattern
    resource
    severity
    discoveredAt
    details := (js "entity_kind", property (js "kind") entity) ::
      (js "entity_name", property (js "name") entity) :: details
    dedupKey := platform ++ js ":" ++ pattern.text ++ js ":" ++ resource }

def buildObservation (event : DriftEvent) (discoveredAt : JsString) : Option DriftObservation :=
  match event with
  | .entityAdded _ => none
  | .entityGone entity => some (observationOf entity .entityGone .p1 discoveredAt
      [(js "last_seen", property (js "last_seen") entity)])
  | .replicaMismatch entity running desired =>
    some (observationOf entity .replicaMismatch .p1 discoveredAt
      [(js "replicas_running", .num running), (js "replicas_desired", .num desired)])
  | .imageChanged entity previous current =>
    some (observationOf entity .imageChanged .p2 discoveredAt
      [(js "previous_image", .str previous), (js "current_image", .str current)])

/-- `DedupCache`. A time is `none` when it is `NaN`. -/
structure DedupCache where
  windowMs : JsNumber
  seen : List (JsString × Option ℤ)

/-- `now - last < windowMs` -/
def DedupCache.within (cache : DedupCache) (now last : Option ℤ) : Bool :=
  (JsNumber.dateDiff now last).lt cache.windowMs

def DedupCache.isDuplicate (cache : DedupCache) (obs : DriftObservation) (now : Option ℤ) :
    Bool × DedupCache :=
  if (cache.seen.lookup obs.dedupKey).any (cache.within now) then (true, cache)
  else (false, { cache with
    seen := (obs.dedupKey, now) :: cache.seen.filter fun seen => seen.1 ≠ obs.dedupKey })

/-- The observations that are saved, one event after the other. -/
def emitDrift (saves : DriftObservation → Bool) (sweepAt : JsString) (sweepMs : Option ℤ) :
    List DriftEvent → DedupCache → List DriftObservation × DedupCache
  | [], cache => ([], cache)
  | event :: events, cache =>
    match buildObservation event sweepAt with
    | none => emitDrift saves sweepAt sweepMs events cache
    | some obs =>
      match cache.isDuplicate obs sweepMs with
      | (true, cache) => emitDrift saves sweepAt sweepMs events cache
      | (false, cache) =>
        let rest := emitDrift saves sweepAt sweepMs events cache
        if saves obs then (obs :: rest.1, rest.2) else rest

/-- What is emitted is about an event of the sweep. -/
theorem mem_emitDrift {saves : DriftObservation → Bool} {sweepAt : JsString} {sweepMs : Option ℤ}
    {events : List DriftEvent} {cache : DedupCache} {obs : DriftObservation}
    (h : obs ∈ (emitDrift saves sweepAt sweepMs events cache).1) :
    ∃ event ∈ events, buildObservation event sweepAt = some obs := by
  induction events generalizing cache with
  | nil => cases h
  | cons event events ih =>
    have hlater {cache : DedupCache} (h : obs ∈ (emitDrift saves sweepAt sweepMs events cache).1) :
        ∃ event' ∈ event :: events, buildObservation event' sweepAt = some obs := by
      obtain ⟨event', hevent, hobs⟩ := ih h
      exact ⟨event', List.mem_cons_of_mem _ hevent, hobs⟩
    rw [emitDrift] at h
    cases hbuilt : buildObservation event sweepAt with
    | none =>
      rw [hbuilt] at h
      exact hlater h
    | some built =>
      rw [hbuilt] at h
      dsimp only at h
      rcases hdup : cache.isDuplicate built sweepMs with ⟨duplicate, cache'⟩
      rw [hdup] at h
      cases duplicate with
      | true => exact hlater h
      | false =>
        dsimp only at h
        split_ifs at h with hsaves
        · rcases List.mem_cons.mp h with rfl | h
          · exact ⟨event, List.mem_cons_self .., hbuilt⟩
          · exact hlater h
        · exact hlater h

/-! ### Observations -/

structure Observation where
  id : JsString
  platform : JsString
  pattern : JsString
  resource : JsString
  severity : Severity
  discoveredAt : JsString
  details : Option Fields
  dedupKey : Option JsString

/-- The observation of a drift, with the random id that it is given -/
def DriftObservation.record (obs : DriftObservation) (id : JsString) : Observation where
  id
  platform := obs.platform
  pattern := obs.pattern.text
  resource := obs.resource
  severity := obs.severity
  discoveredAt := obs.discoveredAt
  details := some obs.details
  dedupKey := some obs.dedupKey

/-- `${platform}:${pattern}:${resource}` -/
def keyText (platform pattern resource : JsString) : JsString :=
  platform ++ js ":" ++ pattern ++ js ":" ++ resource

/-- `keyOf` -/
def Observation.key (obs : Observation) : JsString :=
  obs.dedupKey.getD (keyText obs.platform obs.pattern obs.resource)

/-- `new Date(discovered_at) < since`, which no date that cannot be read is -/
def Observation.before (dateMs : JsString → Option ℤ) (since : ℤ) (obs : Observation) : Bool :=
  (dateMs obs.discoveredAt).any (· < since)

/-- `list({ since })`, but for the order -/
def listSince (dateMs : JsString → Option ℤ) (since : ℤ) (stored : List Observation) : List Observation :=
  stored.filter fun obs => !obs.before dateMs since

end Homelab
