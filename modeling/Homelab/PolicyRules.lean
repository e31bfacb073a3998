import Homelab.ProbeKeys
import Homelab.Topology

/-! The rules of placement, and the observations of the services that are placed against them. -/
namespace Homelab
open Js

/-! ### Rules -/

structure PolicyTargetPredicate where
  env : Option JsString := none
  tag : Option (JsString × JsString) := none
  capability : Option JsString := none

/-- What the probe reads of the parameters of a rule -/
structure PolicyParams where
  requireCapability : Option JsString := none
  antiAffinityRole : Option JsString := none
  maxPerNode : Option ℕ := none

inductive PolicyRuleEffect
  | allow
  | deny
  | requireApproval

def PolicyRuleEffect.text : PolicyRuleEffect → JsString
  | .allow => js "allow"
  | .deny => js "deny"
  | .requireApproval => js "require-approval"

structure PolicyRule where
  id : JsString
  when : PolicyTargetPredicate
  type : JsString
  effect : PolicyRuleEffect
  params : PolicyParams

def noWorkloadsOnManager : PolicyRule where
  id := js "no-workloads-on-manager"
  when := { capability := some (js "manager") }
  type := js "placement"
  effect := .deny
  params := {}

def gpuRequiredForMedia : PolicyRule where
  id := js "gpu-required-for-media"
  when := { tag := some (js "role", js "media") }
  type := js "placement"
  effect := .deny
  params := { requireCapability := some (js "gpu") }

def mediaAntiAffinity : PolicyRule where
  id := js "media-anti-affinity"
  when := { tag := some (js "role", js "media") }
  type := js "affinity"
  effect := .deny
  params := { antiAffinityRole := some (js "media") }

def arrStackAntiAffinity : PolicyRule where
  id := js "arr-stack-anti-affinity"
  when := { tag := some (js "role", js "arr-stack") }
  type := js "affinity"
  effect := .deny
  params := { antiAffinityRole := some (js "arr-stack"), maxPerNode := some 1 }

def buildInvariantRules : List PolicyRule :=
  [noWorkloadsOnManager,
   ⟨js "infra-env-approval", { env := some (js "infra") }, js "placement", .requireApproval, {}⟩,
   gpuRequiredForMedia, mediaAntiAffinity, arrStackAntiAffinity,
   ⟨js "prod-approval", { env := some (js "prod") }, js "placement", .requireApproval, {}⟩,
   ⟨js "prod-maintenance-window", { env := some (js "prod") }, js "maintenance-window", .deny, {}⟩,
   ⟨js "blast-radius-cap", {}, js "blast-radius", .deny, {}⟩,
   ⟨js "destructiveness-floor", {}, js "placement", .requireApproval, {}⟩]

def storageArrayProtection : PolicyRule where
  id := js "storage-array-protection"
  when := { capability := some (js "storage") }
  type := js "placement"
  effect := .requireApproval
  params := {}

def prodConcurrentDeployQuota : PolicyRule where
  id := js "prod-concurrent-deploy-quota"
  when := { env := some (js "prod") }
  type := js "quota"
  effect := .deny
  params := {}

def buildTopologyDerivedRules (topology : TopologyDescriptor) : List PolicyRule :=
  (if topology.nodes.any fun n => n.capabilityTags.contains (js "storage") then [storageArrayProtection]
    else []) ++
  if topology.nodes.any fun n => n.envTier = js "prod" then [prodConcurrentDeployQuota] else []

/-- `generate` -/
def generate (topology : TopologyDescriptor) : List PolicyRule :=
  buildInvariantRules ++ buildTopologyDerivedRules topology

/-! ### Placements -/

structure NodePlacement where
  entity : JsValue
  capabilityTags : List JsString
  services : List JsValue

def nodePlacement (rt : PlacementRuntime) (doc : GraphDocument) (entity : JsValue) : NodePlacement where
  entity := entity
  capabilityTags := inferCapabilityTags rt entity (neighborsOf doc entity)
  services := (neighborsOf doc entity).filter (hasKind serviceKinds)

def nodePlacements (rt : PlacementRuntime) (doc : GraphDocument) : List NodePlacement :=
  (doc.entities.filter (hasKind nodeKinds)).map (nodePlacement rt doc)

/-- The services with the role -/
def ofRole (role : JsString) (services : List JsValue) : List JsValue :=
  services.filter fun svc => attributeText (js "role") svc = role

/-! ### Violations -/

structure Violation where
  rule : PolicyRule
  node : JsValue
  service : JsValue
  expected : JsString
  observed : JsString

def entityName (e : JsValue) : JsString := textOf (js "name") e

def onTaggedNode (rule : PolicyRule) (capability : JsString) (p : NodePlacement) : List Violation :=
  if !p.capabilityTags.contains capability then [] else
  p.services.map fun svc =>
    { rule, node := p.entity, service := svc
      expected := js "no workloads on node with capability '" ++ capability ++ js "'"
      observed := js "service '" ++ entityName svc ++ js "' is co-located on node '" ++ entityName p.entity ++
        js "' tagged '" ++ capability ++ js "'" }

def withoutCapability (rule : PolicyRule) (role capability : JsString) (p : NodePlacement) : List Violation :=
  if p.capabilityTags.contains capability then [] else
  (ofRole role p.services).map fun svc =>
    { rule, node := p.entity, service := svc
      expected := js "service with role '" ++ role ++ js "' must run on a node with '" ++ capability ++
        js "' capability"
      observed := js "service '" ++ entityName svc ++ js "' (role='" ++ attributeText (js "role") svc ++
        js "') is running on node '" ++ entityName p.entity ++ js "' which lacks the '" ++ capability ++
        js "' capability" }

def overLimit (rt : PlacementRuntime) (rule : PolicyRule) (role : JsString) (maxPerNode : ℕ)
    (p : NodePlacement) : List Violation :=
  let matching := ofRole role p.services
  if matching.length ≤ maxPerNode then [] else
  ((sortById rt (textOf (js "id")) matching).drop maxPerNode).map fun svc =>
    { rule, node := p.entity, service := svc
      expected := js "at most " ++ (JsNumber.ofNat maxPerNode).toText ++ js " service(s) with role '" ++
        role ++ js "' per node"
      observed := (JsNumber.ofNat matching.length).toText ++ js " service(s) with role '" ++ role ++
        js "' are co-located on node '" ++ entityName p.entity ++ js "'" }

/-- `evaluateRule`, for one node: a part of the rule that is absent or no text reads as empty. -/
def evaluateRule (rt : PlacementRuntime) (rule : PolicyRule) (p : NodePlacement) : List Violation :=
  let capability := rule.when.capability.getD []
  let role := (rule.when.tag.map Prod.snd).getD []
  let required := rule.params.requireCapability.getD []
  let antiAffinityRole := rule.params.antiAffinityRole.getD []
  if rule.type = js "placement" then
    if capability ≠ [] then onTaggedNode rule capability p
    else if role ≠ [] ∧ required ≠ [] then withoutCapability rule role required p
    else []
  else if rule.type = js "affinity" then
    if antiAffinityRole = [] then []
    else overLimit rt rule antiAffinityRole (rule.params.maxPerNode.getD 1) p
  else []

/-- `evaluate`: the analyzer and the probe read the graph one after the other. -/
def evaluate (rt : PlacementRuntime) (clock : JsString) (analyzed doc : GraphDocument) : List Violation :=
  (generate (analyze rt clock analyzed)).flatMap fun rule =>
    (nodePlacements rt doc).flatMap (evaluateRule rt rule)

def effectToSeverity : PolicyRuleEffect → Severity
  | .deny => .p0
  | .requireApproval => .p1
  | .allow => .p2

/-- `makeViolationObservation`, with the random id and the date that it stamps -/
def makeViolationObservation (platform : JsString) (stamp : Stamp) (v : Violation) : Observation where
  id := stamp.id
  platform
  pattern := js "policy_drift"
  resource := js "service/" ++ entityName v.service ++ js "@node/" ++ entityName v.node
  severity := effectToSeverity v.rule.effect
  discoveredAt := stamp.discoveredAt
  details := some [(js "rule_id", .str v.rule.id), (js "rule_type", .str v.rule.type),
    (js "rule_effect", .str v.rule.effect.text), (js "expected", .str v.expected),
    (js "observed", .str v.observed), (js "node_id", .str (textOf (js "id") v.node)),
    (js "node_name", .str (entityName v.node)), (js "service_id", .str (textOf (js "id") v.service)),
    (js "service_name", .str (entityName v.service))]
  dedupKey := some (platform ++ js ":policy_drift:rule/" ++ v.rule.id ++ js "/" ++ textOf (js "id") v.service)

/-- What one scan is given: the stamps of its observations and the clock -/
structure ScanInput where
  platform : JsString
  stamps : ℕ → Stamp
  clock : JsString

/-- `scan` of the policy probe, from what its two reads of the graph find; there is nothing to report
when one of them fails. -/
def scanPolicies (rt : PlacementRuntime) (input : ScanInput) (analyzed doc : Option GraphDocument) :
    List Observation :=
  match analyzed, doc with
  | some analyzed, some doc => (evaluate rt input.clock analyzed doc).mapIdx fun i v =>
      makeViolationObservation input.platform (input.stamps i) v
  | _, _ => []

end Homelab
