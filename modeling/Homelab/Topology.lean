import Homelab.ProbeScans

/-! The facts that the rules go by: the neighbours of the nodes in the graph, and what a node is and
hosts by them. -/
namespace Homelab
open Js

/-! ### Neighbours -/

/-- The members of a `Set`, in the order in which they are added -/
def setOf {α : Type} [DecidableEq α] (l : List α) : List α :=
  l.foldl (fun members a => if a ∈ members then members else members ++ [a]) []

theorem setOf_append {α : Type} [DecidableEq α] (l : List α) (a : α) :
    setOf (l ++ [a]) = if a ∈ setOf l then setOf l else setOf l ++ [a] := List.foldl_append

theorem mem_setOf {α : Type} [DecidableEq α] {l : List α} {a : α} : a ∈ setOf l ↔ a ∈ l := by
  induction l using List.reverseRecOn with
  | nil => rfl
  | append_singleton l b ih =>
    rw [setOf_append, List.mem_append, List.mem_singleton]
    split_ifs with hb
    · constructor
      · exact fun h => .inl (ih.mp h)
      · rintro (h | rfl)
        · exact ih.mpr h
        · exact hb
    · rw [List.mem_append, List.mem_singleton, ih]

theorem setOf_nodup {α : Type} [DecidableEq α] (l : List α) : (setOf l).Nodup := by
  induction l using List.reverseRecOn with
  | nil => exact List.nodup_nil
  | append_singleton l b ih =>
    rw [setOf_append]
    split_ifs with hb
    · exact ih
    · rw [List.nodup_append]
      refine ⟨ih, List.nodup_singleton b, ?_⟩
      rintro x hx y hy rfl
      rw [List.mem_singleton.mp hy] at hx
      exact hb hx

/-- `neighborMap.get(id)`: the other ends of the edges, of each type and in both directions -/
def neighborIds (edges : List JsValue) (id : JsString) : List JsString :=
  setOf (edges.flatMap fun edge =>
    (if textOf (js "from") edge = id then [textOf (js "to") edge] else []) ++
      if textOf (js "to") edge = id then [textOf (js "from") edge] else [])

/-- The entities of the graph among them -/
def neighborsOf (doc : GraphDocument) (entity : JsValue) : List JsValue :=
  (neighborIds doc.edges (textOf (js "id") entity)).filterMap fun nid => priorById doc.entities (.str nid)

def hasKind (kinds : List JsString) (e : JsValue) : Bool :=
  kinds.any fun kind => equalsText kind (property (js "kind") e)

def nodeKinds : List JsString := [js "node", js "platform"]

def serviceKinds : List JsString := [js "service", js "container"]

/-! ### Facts of a node -/

/-- What the rules ask of the texts of JavaScript -/
structure PlacementRuntime where
  toLowerCase : JsString → JsString
  localeCompare : JsString → JsString → ℤ

/-- `a.id.localeCompare(b.id)`, by which a list is sorted -/
def sortById {α : Type} (rt : PlacementRuntime) (idOf : α → JsString) (l : List α) : List α :=
  l.mergeSort fun a b => rt.localeCompare (idOf a) (idOf b) ≤ 0

def lowerAttribute (rt : PlacementRuntime) (k : JsString) (entity : JsValue) : JsString :=
  rt.toLowerCase (attributeText k entity)

def hasGpuCount (entity : JsValue) : Bool :=
  match attributeOf (js "gpu_count") entity with
  | .num count => (JsNumber.ofNat 0).lt count
  | .str count => (parseInt count).any (0 < ·)
  | _ => false

def hasArray (entity : JsValue) (neighbors : List JsValue) : Bool :=
  trim (attributeText (js "array_state") entity) ≠ [] || neighbors.any (hasKind [js "storage-array"])

def isStorage (entity : JsValue) (neighbors : List JsValue) : Bool :=
  hasKind [js "storage-array", js "share", js "storage-volume"] entity ||
    includes (js "storage") (attributeText (js "role") entity) ||
      neighbors.any (hasKind [js "share", js "storage-volume"]) || hasArray entity neighbors

def hasGpu (entity : JsValue) (neighbors : List JsValue) : Bool :=
  hasGpuCount entity || neighbors.any (hasKind [js "gpu"])

def isManager (rt : PlacementRuntime) (entity : JsValue) : Bool :=
  [js "leader", js "reachable", js "manager"].contains (lowerAttribute rt (js "manager_status") entity) ||
    [js "manager", js "control-plane"].contains (attributeText (js "role") entity) ||
    [js "master", js "control-plane"].contains (lowerAttribute rt (js "node_role") entity) ||
    lowerAttribute rt (js "platform_type") entity = js "proxmox"

/-- The tags, which are sorted -/
def inferCapabilityTags (rt : PlacementRuntime) (entity : JsValue) (neighbors : List JsValue) :
    List JsString :=
  (if hasArray entity neighbors then [js "array"] else []) ++
  (if hasGpu entity neighbors then [js "gpu"] else []) ++
  (if isManager rt entity then [js "manager"] else []) ++
  (if isStorage entity neighbors then [js "storage"] else []) ++
  (if hasKind nodeKinds entity && !isManager rt entity then [js "worker"] else [])

def inferEnvTier (rt : PlacementRuntime) (entity : JsValue) (tags : List JsString) : JsString :=
  match [js "env", js "env_tier", js "environment"].find? fun key => trim (attributeText key entity) ≠ [] with
  | some key => rt.toLowerCase (trim (attributeText key entity))
  | none =>
    if tags.contains (js "manager") then js "infra"
    else if tags.contains (js "array") then js "prod"
    else js "unknown"

def inferNodeRole (rt : PlacementRuntime) (entity : JsValue) (tags : List JsString) : JsString :=
  if attributeText (js "role") entity ≠ [] then attributeText (js "role") entity
  else if lowerAttribute rt (js "platform_type") entity = js "proxmox" then js "hypervisor"
  else if lowerAttribute rt (js "platform_type") entity = js "unraid" then js "storage"
  else if tags.contains (js "manager") then js "manager"
  else if tags.contains (js "array") then js "storage"
  else js "compute"

/-- The roles of the services among the neighbours, without those that are blank -/
def hostedServiceRoles (neighbors : List JsValue) : List JsString :=
  let roles := (neighbors.filter (hasKind serviceKinds)).map fun neighbor =>
    trim (attributeText (js "role") neighbor)
  (setOf (roles.filter fun role => role ≠ [])).mergeSort fun a b => a ≤ b

structure NodeFacts where
  id : JsString
  name : JsString
  kind : JsString
  role : JsString
  envTier : JsString
  capabilityTags : List JsString
  hostedServiceRoles : List JsString

def nodeFacts (rt : PlacementRuntime) (doc : GraphDocument) (entity : JsValue) : NodeFacts :=
  let neighbors := neighborsOf doc entity
  let tags := inferCapabilityTags rt entity neighbors
  { id := textOf (js "id") entity
    name := textOf (js "name") entity
    kind := textOf (js "kind") entity
    role := inferNodeRole rt entity tags
    envTier := inferEnvTier rt entity tags
    capabilityTags := tags
    hostedServiceRoles := hostedServiceRoles neighbors }

structure TopologyDescriptor where
  generatedAt : JsString
  nodes : List NodeFacts

/-- `analyze` -/
def analyze (rt : PlacementRuntime) (clock : JsString) (doc : GraphDocument) : TopologyDescriptor where
  generatedAt := clock
  nodes := sortById rt NodeFacts.id ((doc.entities.filter (hasKind nodeKinds)).map (nodeFacts rt doc))

end Homelab
