import Homelab.EnumerationCalls
import Homelab.CertAuthority

/-! The enumerator of Docker Swarm, which also serves plain Docker hosts and Portainer. -/
namespace Homelab
open Js Dialogue

/-! ### What Docker prints -/

/-- One JSON value a line; lines that are none are skipped. -/
def parseNdjson (text : JsString) : List JsValue :=
  (text.splitOn 0x0A).filterMap fun line => if trim line = [] then none else jsonParse (trim line)

def parseDockerJson (stdout : JsString) : List JsValue :=
  let trimmed := trim stdout
  if trimmed = [] then []
  else if trimmed.head? = some 0x5B then
    match jsonParse trimmed with
    | some (.arr values) => values
    | _ => parseNdjson trimmed
  else parseNdjson trimmed

/-- `parseInt(part ?? '0', 10)`, or zero -/
def replicaCount (part : Option JsString) : JsNumber :=
  .ofScaledInt ((parseInt (part.getD (js "0"))).getD 0) 0

/-- The replicas that are running, and those that are desired -/
def parseReplicas (s : JsString) : JsNumber × JsNumber :=
  let parts := s.splitOn 0x2F
  (replicaCount parts[0]?, replicaCount parts[1]?)

def portList (ports : JsString) : List JsString :=
  if trim ports = [] then [] else ((ports.splitOn 0x2C).map trim).filter (· ≠ [])

def parsePorts : JsValue → Except JsString (List JsString)
  | .str ports => .ok (portList ports)
  | .undefined => .ok []
  | .null => .ok []
  | .bool false => .ok []
  | .num x => if x.strictEq (.ofNat 0) then .ok [] else .error (js "ports.trim is not a function")
  | _ => .error (js "ports.trim is not a function")

def serviceNameFromTask (taskName : JsString) : JsString := ((taskName.splitOn 0x2E)[0]?).getD taskName

/-! ### Maps from what Docker names to entity ids -/

/-- The key of a `Map` is found again: texts, numbers and the other primitive values. -/
def sameKey : JsValue → JsValue → Bool
  | .str a, .str b => a = b
  | .num a, .num b => a.strictEq b
  | .bool a, .bool b => a = b
  | .null, .null => true
  | .undefined, .undefined => true
  | _, _ => false

/-- The entries of a `Map`, the last one first. -/
abbrev EntityIds := List (JsValue × JsString)

def EntityIds.get (ids : EntityIds) (key : JsValue) : Option JsString :=
  (ids.find? fun e => sameKey key e.1).map Prod.snd

/-- What the rows of one command come to -/
structure DockerFound where
  result : EnumerationResult
  ids : EntityIds

/-- The loop over the rows; a row that throws ends the enumeration. -/
def dockerRows (each : JsValue → Except JsString DockerFound) : List JsValue → Except JsString DockerFound
  | [] => .ok ⟨.none, []⟩
  | row :: rows => do
    let first ← each row
    let rest ← dockerRows each rows
    return ⟨first.result.append rest.result, rest.ids ++ first.ids⟩

variable (ctx : EnumerationContext)

def dockerEntity (id kind : JsString) (name : JsValue) (attributes : Fields) : Fields :=
  foundEntity ctx (js "docker-swarm") id kind name attributes

def memberOf (source target : JsString) : Fields := foundEdge ctx (js "member-of") source target

/-! ### Nodes, services, tasks and networks -/

def dockerNode (n : JsValue) : Except JsString DockerFound := do
  let swarmId ← readProperty n (js "ID")
  let entityId := js "node:" ++ ctx.platformId ++ js ":" ++ (← inTemplate swarmId)
  let hostname := property (js "Hostname") n
  let engineVersion := property (js "EngineVersion") n
  let attributes := [(js "swarm_node_id", swarmId), (js "status", property (js "Status") n),
    (js "availability", property (js "Availability") n),
    (js "manager_status", property (js "ManagerStatus") n)] ++
    if engineVersion.isDefined then [(js "engine_version", engineVersion)] else []
  return ⟨⟨[dockerEntity ctx entityId (js "node") hostname attributes],
      [memberOf ctx entityId (platformEntityId ctx)]⟩, [(hostname, entityId), (swarmId, entityId)]⟩

/-- The edge from a service to the platform for one of its ports -/
def exposesEdge (entityId port : JsString) : Fields :=
  [(js "id", .str (js "exposes:" ++ entityId ++ js ":" ++ port)), (js "from", .str entityId),
    (js "to", .str (platformEntityId ctx)), (js "type", .str (js "exposes")),
    (js "attributes", .obj [(js "port", .str port)]), (js "discovered_at", .str ctx.now),
    (js "last_seen", .str ctx.now), (js "status", .str (js "active"))]

def dockerService (s : JsValue) : Except JsString DockerFound := do
  let name ← readProperty s (js "Name")
  let entityId := js "service:" ++ ctx.platformId ++ js ":" ++ (← inTemplate name)
  let serviceId := property (js "ID") s
  let replicas := parseReplicas (← textMethod (js "s") (js "split") (property (js "Replicas") s))
  let ports ← parsePorts (property (js "Ports") s)
  let attributes := [(js "service_id", serviceId), (js "image", property (js "Image") s),
    (js "mode", property (js "Mode") s), (js "replicas_running", .num replicas.1),
    (js "replicas_desired", .num replicas.2), (js "ports", .arr (ports.map JsValue.str))]
  return ⟨⟨[dockerEntity ctx entityId (js "service") name attributes],
      memberOf ctx entityId (platformEntityId ctx) :: ports.map (exposesEdge ctx entityId)⟩,
    [(serviceId, entityId), (name, entityId)]⟩

def dockerTask (nodes services : EntityIds) (t : JsValue) : Except JsString DockerFound := do
  let desiredState ← readProperty t (js "DesiredState")
  if !equalsText (js "Running") desiredState then return ⟨.none, []⟩
  let taskId := property (js "ID") t
  let entityId := js "container:" ++ ctx.platformId ++ js ":" ++ (← inTemplate taskId)
  let taskName := property (js "Name") t
  let attributes := [(js "task_id", taskId), (js "image", property (js "Image") t),
    (js "current_state", property (js "CurrentState") t), (js "desired_state", desiredState)]
  let runsOn := (nodes.get (property (js "Node") t)).map (foundEdge ctx (js "runs-on") entityId)
  let svcName := serviceNameFromTask (← textMethod (js "taskName") (js "split") taskName)
  let service := (services.get (.str svcName)).map (memberOf ctx entityId)
  return ⟨⟨[dockerEntity ctx entityId (js "container") taskName attributes],
    runsOn.toList ++ service.toList⟩, []⟩

def dockerNetwork (n : JsValue) : Except JsString DockerFound := do
  let driver ← readProperty n (js "Driver")
  let labels := property (js "Labels") n
  if !equalsText (js "overlay") driver && equalsText [] labels then return ⟨.none, []⟩
  let name := property (js "Name") n
  let entityId := js "network:" ++ ctx.platformId ++ js ":" ++ (← inTemplate name)
  let attributes := [(js "network_id", property (js "ID") n), (js "driver", driver),
    (js "scope", property (js "Scope") n), (js "labels", labels)]
  return ⟨⟨[dockerEntity ctx entityId (js "network") name attributes],
    [memberOf ctx entityId (platformEntityId ctx)]⟩, []⟩

/-! ### The enumeration -/

def dockerOutput : ExecOutcome → List JsValue
  | .threw => []
  | .exited exitCode stdout => if exitCode ≠ 0 then [] else parseDockerJson stdout

/-- The `exec` of the enumerator: what a command prints, or nothing when it fails -/
def dockerExec (command : JsString) : Enumeration (List JsValue) :=
  .ask command fun outcome => .done (dockerOutput outcome)

def jsonFormat : JsString := js " --format '\x7b\x7bjson .\x7d\x7d'"

/-- `serviceIds.join(' ')` -/
def joinIds (ids : List JsValue) : Except JsString JsString :=
  if anyThrows ids then .error coercionMessage else .ok ([0x20].intercalate (coerceElems ids))

/-- The tasks of the services; without services nothing is asked. -/
def dockerTasks (rawServices : List JsValue) : Enumeration (List JsValue) :=
  if rawServices = [] then .done []
  else do
    let serviceIdArgs ← give (joinIds (rawServices.map (property (js "ID"))))
    dockerExec
      (js "docker service ps" ++ jsonFormat ++ js " --filter desired-state=running " ++ serviceIdArgs)

def dockerEnumerate : Enumeration EnumerationResult := do
  let rawNodes ← dockerExec (js "docker node ls" ++ jsonFormat)
  let nodes ← give (dockerRows (dockerNode ctx) rawNodes)
  let rawServices ← dockerExec (js "docker service ls" ++ jsonFormat)
  let services ← give (dockerRows (dockerService ctx) rawServices)
  let rawTasks ← dockerTasks rawServices
  let tasks ← give (dockerRows (dockerTask ctx nodes.ids services.ids) rawTasks)
  let rawNetworks ← dockerExec (js "docker network ls" ++ jsonFormat)
  let networks ← give (dockerRows (dockerNetwork ctx) rawNetworks)
  return ((nodes.result.append services.result).append tasks.result).append networks.result

/-! ### What is found -/

variable {ctx}

theorem dockerEntity_reported (id kind : JsString) (name : JsValue) (attributes : Fields) :
    ReportedAt .entities ctx.platformId ctx.now (dockerEntity ctx id kind name attributes) :=
  foundEntity_reported _ _ _ _ _

theorem exposesEdge_reported (entityId port : JsString) :
    ReportedAt .edges ctx.platformId ctx.now (exposesEdge ctx entityId port) where
  typed := by
    intro k hk
    simp only [GraphPart.required, List.mem_cons, List.not_mem_nil, or_false] at hk
    rcases hk with rfl | rfl | rfl | rfl | rfl | rfl | rfl <;> simp [exposesEdge]
  status := rfl
  lastSeen := rfl
  platform h := by cases h

/-- One entity and its edges -/
theorem foundNow_row {id kind : JsString} {name : JsValue} {attributes : Fields} {edges : List Fields}
    (h : ∀ edge ∈ edges, ReportedAt .edges ctx.platformId ctx.now edge) :
    FoundNow ctx ⟨[dockerEntity ctx id kind name attributes], edges⟩ := by
  refine ⟨?_, h⟩
  intro record hrecord
  rw [List.mem_singleton.mp hrecord]
  exact dockerEntity_reported ..

theorem dockerRows_found {each : JsValue → Except JsString DockerFound}
    (heach : ∀ row found, each row = .ok found → FoundNow ctx found.result) {rows : List JsValue}
    {found : DockerFound} (h : dockerRows each rows = .ok found) : FoundNow ctx found.result := by
  induction rows generalizing found with
  | nil =>
    cases h
    exact foundNow_none
  | cons row rows ih =>
    rw [dockerRows] at h
    cases hfirst : each row with
    | error e =>
      rw [hfirst] at h
      cases h
    | ok first =>
      cases hrest : dockerRows each rows with
      | error e =>
        rw [hfirst, hrest] at h
        cases h
      | ok rest =>
        rw [hfirst, hrest] at h
        cases h
        exact (heach row first hfirst).append (ih hrest)

/-- A step of a computation that has returned has returned. -/
theorem ok_of_bind {α β : Type} {m : Except JsString α} {f : α → Except JsString β} {b : β}
    (h : m >>= f = .ok b) : ∃ a, m = .ok a ∧ f a = .ok b := by
  cases m with
  | error e => cases h
  | ok a => exact ⟨a, rfl, h⟩

theorem dockerNode_found {n : JsValue} {found : DockerFound} (h : dockerNode ctx n = .ok found) :
    FoundNow ctx found.result := by
  obtain ⟨swarmId, -, h⟩ := ok_of_bind h
  obtain ⟨text, -, h⟩ := ok_of_bind h
  cases h
  apply foundNow_row
  intro edge hedge
  rw [List.mem_singleton.mp hedge]
  exact foundEdge_reported ..

theorem dockerService_found {s : JsValue} {found : DockerFound} (h : dockerService ctx s = .ok found) :
    FoundNow ctx found.result := by
  obtain ⟨name, -, h⟩ := ok_of_bind h
  obtain ⟨text, -, h⟩ := ok_of_bind h
  obtain ⟨replicas, -, h⟩ := ok_of_bind h
  obtain ⟨ports, -, h⟩ := ok_of_bind h
  cases h
  apply foundNow_row
  intro edge hedge
  rcases List.mem_cons.mp hedge with rfl | hedge
  · exact foundEdge_reported ..
  · obtain ⟨port, -, rfl⟩ := List.mem_map.mp hedge
    exact exposesEdge_reported ..

theorem dockerTask_found {nodes services : EntityIds} {t : JsValue} {found : DockerFound}
    (h : dockerTask ctx nodes services t = .ok found) : FoundNow ctx found.result := by
  obtain ⟨desiredState, -, h⟩ := ok_of_bind h
  split_ifs at h with hstate
  · cases h
    exact foundNow_none
  · obtain ⟨text, -, h⟩ := ok_of_bind h
    obtain ⟨taskName, -, h⟩ := ok_of_bind h
    cases h
    apply foundNow_row
    intro edge hedge
    rcases List.mem_append.mp hedge with hedge | hedge
    · obtain ⟨node, -, rfl⟩ := Option.map_eq_some_iff.mp (Option.mem_toList.mp hedge)
      exact foundEdge_reported ..
    · obtain ⟨service, -, rfl⟩ := Option.map_eq_some_iff.mp (Option.mem_toList.mp hedge)
      exact foundEdge_reported ..

theorem dockerNetwork_found {n : JsValue} {found : DockerFound} (h : dockerNetwork ctx n = .ok found) :
    FoundNow ctx found.result := by
  obtain ⟨driver, -, h⟩ := ok_of_bind h
  dsimp only at h
  split_ifs at h with hskip
  · cases h
    exact foundNow_none
  · obtain ⟨text, -, h⟩ := ok_of_bind h
    cases h
    apply foundNow_row
    intro edge hedge
    rw [List.mem_singleton.mp hedge]
    exact foundEdge_reported ..

/-- A result that the rows of a command give, on the way of the enumeration -/
theorem returns_give {May : ∀ _ : JsString, ExecOutcome → Prop} {α β : Type} {P : β → Prop}
    {r : Except JsString α} {f : α → Enumeration β} (h : ∀ a, r = .ok a → Returns May P (f a)) :
    Returns May P ((give r).bind f) := by
  cases r with
  | error e => exact returns_fail e
  | ok a => exact h a rfl

theorem dockerEnumerate_found (May : ∀ _ : JsString, ExecOutcome → Prop) :
    Returns May (FoundNow ctx) (dockerEnumerate ctx) := by
  apply returns_bind
  intro rawNodes
  apply returns_give
  intro nodes hnodes
  apply returns_bind
  intro rawServices
  apply returns_give
  intro services hservices
  apply returns_bind
  intro rawTasks
  apply returns_give
  intro tasks htasks
  apply returns_bind
  intro rawNetworks
  apply returns_give
  intro networks hnetworks
  apply returns_done
  have hnodes' := dockerRows_found (fun _ _ => dockerNode_found) hnodes
  have hservices' := dockerRows_found (fun _ _ => dockerService_found) hservices
  have htasks' := dockerRows_found (fun _ _ => dockerTask_found) htasks
  have hnetworks' := dockerRows_found (fun _ _ => dockerNetwork_found) hnetworks
  exact ((hnodes'.append hservices').append htasks').append hnetworks'

/-! ### A host that does not answer -/

theorem dockerExec_unanswered (command : JsString) : Yields Unanswered [] (dockerExec command) := by
  apply yields_ask
  intro outcome hfailed
  have hnothing : dockerOutput outcome = [] := by
    cases outcome with
    | threw => rfl
    | exited exitCode stdout => exact if_pos hfailed
  rw [hnothing]
  exact yields_done []

theorem dockerEnumerate_unanswered : Yields Unanswered .none (dockerEnumerate ctx) := by
  apply yields_bind (dockerExec_unanswered _)
  apply yields_bind (yields_done _)
  apply yields_bind (dockerExec_unanswered _)
  apply yields_bind (yields_done _)
  apply yields_bind (yields_done [])
  apply yields_bind (yields_done _)
  apply yields_bind (dockerExec_unanswered _)
  apply yields_bind (yields_done _)
  exact yields_done _

end Homelab
