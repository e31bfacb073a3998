import Homelab.GraphPasses
import Homelab.DriftObservation

/-! The health score of an entity, and the pass that scores all of them. -/
namespace Homelab
open Js

/-! ### The score -/

/-- What the scoring asks of the numbers of JavaScript: `Math.pow(0.5, ageMs / windowMs)`, which may be
`NaN`, and the double that a number is rounded to. -/
structure ScoreRuntime where
  dateMs : JsString → Option ℤ
  decay : (ageMs windowMs : ℤ) → Option ℚ
  number : ℚ → JsNumber

structure SeverityWeights where
  p0 : ℚ
  p1 : ℚ
  p2 : ℚ

structure HealthScoringOptions where
  now : ℤ
  windowMs : Option ℤ := none
  obsPenaltyCap : Option ℚ := none
  weightP0 : Option ℚ := none
  weightP1 : Option ℚ := none
  weightP2 : Option ℚ := none
  replicaWeight : Option ℚ := none

def defaultWindowMs : ℤ := 24*60*60*1000

inductive HealthGrade
  | healthy
  | degraded
  | unhealthy

def HealthGrade.text : HealthGrade → JsString
  | .healthy => js "healthy"
  | .degraded => js "degraded"
  | .unhealthy => js "unhealthy"

structure HealthScore where
  score : ℚ
  grade : HealthGrade

def severityWeight (weights : SeverityWeights) : Severity → ℚ
  | .p0 => weights.p0
  | .p1 => weights.p1
  | .p2 => weights.p2

def statusPenalty (entity : JsValue) : ℚ :=
  if hasStatus (js "stale") entity then 20 else if hasStatus (js "gone") entity then 60 else 0

/-- `Math.min(1, Math.max(0, desired - running) / desired)`, or nothing where that is `NaN` -/
def shortfallRatio (desired : ℚ) : JsNumber → ℚ
  | .fin running => min 1 (max 0 (desired-running.value)/desired)
  | .inf neg => if neg then 1 else 0
  | .nan => 0

def replicaPenalty (weight : ℚ) (entity : JsValue) : ℚ :=
  match attributeOf (js "replicas_desired") entity, attributeOf (js "replicas_running") entity with
  | .num (.fin desired), .num running =>
    if 0 < desired.value then shortfallRatio desired.value running*weight else 0
  | _, _ => 0

/-- What an observation adds, when its date can be read -/
def contribution (rt : ScoreRuntime) (now windowMs : ℤ) (weights : SeverityWeights) (obs : Observation) :
    Option (Option ℚ) :=
  (rt.dateMs obs.discoveredAt).map fun discoveredMs =>
    (rt.decay (max 0 (now-discoveredMs)) windowMs).map fun decay => severityWeight weights obs.severity*decay

/-- The sum of what the observations add, up to the cap; nothing when it is `NaN` -/
def observationPenalty (rt : ScoreRuntime) (now windowMs : ℤ) (weights : SeverityWeights) (cap : ℚ)
    (observations : List Observation) : ℚ :=
  let contributions := observations.filterMap (contribution rt now windowMs weights)
  if contributions.all Option.isSome then max 0 (min (contributions.map fun c => c.getD 0).sum cap) else 0

def computeHealthScore (rt : ScoreRuntime) (entity : JsValue) (observations : List Observation)
    (opts : HealthScoringOptions) : HealthScore :=
  let weights := ⟨opts.weightP0.getD 40, opts.weightP1.getD 20, opts.weightP2.getD 10⟩
  let score := 100 - statusPenalty entity - replicaPenalty (opts.replicaWeight.getD 40) entity -
    observationPenalty rt opts.now (opts.windowMs.getD defaultWindowMs) weights
      (opts.obsPenaltyCap.getD 70) observations
  let clamped := max 0 (min 100 score)
  ⟨clamped, if 80 ≤ clamped then .healthy else if 50 ≤ clamped then .degraded else .unhealthy⟩

/-! ### All entities -/

/-- `/^(\d+)(m|h|d)$/` -/
def parseWindowMs (s : JsString) : Option ℤ :=
  let (digits, unit) := spanDigits s
  if digits = [] then none
  else if unit = js "m" then some (ofDigitList digits*60000)
  else if unit = js "h" then some (ofDigitList digits*3600000)
  else if unit = js "d" then some (ofDigitList digits*86400000)
  else none

structure SloSpec where
  target : Option JsNumber
  window : Option JsString

structure HealthScorer where
  windowMs : ℤ
  lookbackMs : ℤ
  sloSpecs : List (JsString × SloSpec)

/-- What the constructor makes of its options -/
def healthScorer (windowMs lookbackMs : Option ℤ) (sloSpecs : List (JsString × SloSpec)) : HealthScorer :=
  let window := windowMs.getD defaultWindowMs
  ⟨window, lookbackMs.getD window, sloSpecs⟩

/-- The observations with this resource -/
def byResource (observations : List Observation) (resource : JsString) : List Observation :=
  observations.filter fun obs => obs.resource = resource

/-- The observations that are counted in the score of an entity: those of its id, and those of its kind
and name. -/
def entityObservations (observations : List Observation) (entity : JsValue) : List Observation :=
  let id := (property (js "id") entity).coerce
  let kindName := (property (js "kind") entity).coerce ++ js "/" ++ (property (js "name") entity).coerce
  byResource observations id ++ if kindName ≠ id then byResource observations kindName else []

variable (rt : ScoreRuntime) (scorer : HealthScorer)

/-- The window of the entity's own objective, where that can be read, or the one of the scorer -/
def HealthScorer.windowOf (entity : JsValue) : ℤ :=
  let spec := scorer.sloSpecs.lookup (property (js "id") entity).coerce
  ((spec.bind SloSpec.window).bind parseWindowMs).getD scorer.windowMs

def HealthScorer.scoreOf (now : ℤ) (observations : List Observation) (entity : JsValue) : HealthScore :=
  computeHealthScore rt entity (entityObservations observations entity)
    { now, windowMs := some (scorer.windowOf entity) }

/-- The observations that the scorer lists; none when the store cannot be read -/
def HealthScorer.openObservations (now : ℤ) (stored : Option (List Observation)) : List Observation :=
  (stored.map (listSince rt.dateMs (now-scorer.lookbackMs))).getD []

/-- `scoreAll`, from its snapshot on: what it writes back of all entities -/
def scoreWrites (now : ℤ) (stored : Option (List Observation)) (snapshot : GraphDocument) :
    List WriteBack :=
  let observations := scorer.openObservations rt now stored
  snapshot.entities.map fun entity =>
    let result := scorer.scoreOf rt now observations entity
    { part := .entities
      read := entity
      fields := [(js "attributes", withAnnotation entity [(js "health_score", .num (rt.number result.score)),
        (js "health_grade", .str result.grade.text)])] }

/-- What `scoreAll` leaves, with no other writer; a write that is refused is passed over. -/
def scoreAll (isDateTime : JsString → Bool) (now : ℤ) (stored : Option (List Observation))
    (doc : GraphDocument) : GraphDocument :=
  writeEach isDateTime (scoreWrites rt scorer now stored doc) doc

end Homelab
