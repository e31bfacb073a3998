import Homelab.DeployBackend

/-! The Docker Swarm backend: `docker stack deploy` over a connection to a manager. -/
namespace Homelab
open Js Path Dialogue

/-! ### Parameters -/

/-- `^[a-z0-9][a-z0-9_-]{0,62}$` -/
def stackNameRegex (s : JsString) : Bool :=
  let small (c : CodeUnit) := (0x61 ≤ c.toNat && c.toNat ≤ 0x7A) || isDigitUnit c
  s.head?.any small && unitsOf (fun c => small c || c ∈ js "_-") 0 62 s.tail

/-- `PARAM_SCHEMA` of `docker-swarm.ts` -/
def swarmSchema : List (JsString × ParamSchema) :=
  [(js "manager_id", requiredText .identifier),
    (js "stack_name", .string true .undefined none (some stackNameRegex) none),
    (js "compose_file_path", requiredText .path),
    (js "image_uri", requiredText .shellSafeArg),
    (js "service_name", requiredText .identifier),
    (js "health_url", optionalText (some .url)),
    (js "health_timeout_seconds", numberIn 180 10 600),
    (js "role", optionalText none),
    (js "named_volumes", .array false (.arr []) (some (optionalText none))),
    (js "backup_platform", optionalText none)]

/-- The compose file, when normalised, is not outside of the directory. -/
def leavesRepo (composePath : JsString) : Bool :=
  let normalised := normalize composePath
  (js "../").isPrefixOf normalised || decide (js "/../" <:+: normalised) || normalised == dotdot

/-! ### Rolling back -/

/-- The loop of `attemptRollback`: whether the update was completed before the deadline. -/
def awaitUpdate (service : JsString) (deadline : ℕ) : ℕ → Deploy Bool
  | 0 => .fail .polling
  | turns+1 => do
    let t ← Deploy.now
    if t < deadline then do
      let state ← Deploy.exec [js "docker", js "service", js "inspect", service, js "--format",
        js "'\x7b\x7b.UpdateStatus.State\x7d\x7d'"]
      if state.exitCode = 0 ∧ lowerCase (trim state.stdout) = js "completed" then return true
      else do
        Deploy.sleep 2000
        awaitUpdate service deadline turns
    else return false

/-- `attemptRollback` -/
def swarmAttemptRollback (turns : ℕ) (stackName serviceName : JsValue) : Deploy RollbackResult := do
  let stack ← templateOf stackName
  let name ← templateOf serviceName
  let service := stack ++ js "_" ++ name
  let result ← Deploy.exec [js "docker", js "service", js "rollback", service]
  if result.exitCode ≠ 0 then return ⟨false, none, [result.output.take 200]⟩
  else do
    let t ← Deploy.now
    let completed ← awaitUpdate service (t+90000) turns
    if completed then
      return ⟨true, some (js "docker-swarm://" ++ stack ++ js "/" ++ name ++ js "@previous"), []⟩
    else return ⟨false, none, [js "rollback did not complete within 90s"]⟩

/-- `rollback` -/
def swarmRollback (turns : ℕ) (record : DeploymentRecord) : Deploy RollbackResult :=
  let details := record.payload.details
  if isNullish (getOwn (js "previous_service_spec") details) then
    return ⟨false, none, [js "no previous service spec to roll back to"]⟩
  else do
    Deploy.getConnection (getOwn (js "manager_id") details)
    let result ← swarmAttemptRollback turns (getOwn (js "stack_name") details)
      (getOwn (js "service_name") details)
    if result.success then do
      let manager ← templateOf (getOwn (js "manager_id") details)
      let stack ← templateOf (getOwn (js "stack_name") details)
      let name ← templateOf (getOwn (js "service_name") details)
      let restored := js "docker-swarm://" ++ manager ++ js "/" ++ stack ++ js "/" ++ name
      return { result with restoredArtifactId := some (restored ++ js "@previous") }
    else return result

/-! ### Deploying -/

/-- `details` of the record of a deploy -/
def swarmDetails (params : Fields) (previousServiceSpec : JsValue) (deployedAt : JsString)
    (stateful : Bool) (namedVolumes backupPlatform : JsValue) : Fields :=
  [(js "manager_id", getOwn (js "manager_id") params),
    (js "stack_name", getOwn (js "stack_name") params),
    (js "service_name", getOwn (js "service_name") params),
    (js "image_uri", getOwn (js "image_uri") params),
    (js "previous_service_spec", previousServiceSpec), (js "deployed_at", .str deployedAt)] ++
  if stateful then [(js "named_volumes", namedVolumes), (js "backup_platform", backupPlatform)] else []

/-- `JSON.parse(stdout)` of the inspection, or `null`. -/
def previousSpec (inspected : CommandResult) : JsValue :=
  if inspected.exitCode = 0 then (jsonParse inspected.stdout).getD .null else .null

/-- What follows a stack deploy that failed. -/
def swarmDeployFailed (turns : ℕ) (params : Fields) (previousServiceSpec : JsValue)
    (message : JsString) : Deploy DeploymentRecord :=
  if isNullish previousServiceSpec then Deploy.raise (.plain .deployFailed message)
  else do
    let rollback ← swarmAttemptRollback turns (getOwn (js "stack_name") params)
      (getOwn (js "service_name") params)
    Deploy.raise ⟨.deployFailed, message, false,
      [(js "rollback_attempted", .bool true), (js "rollback_success", .bool rollback.success),
        (js "rollback_errors", .arr (rollback.errors.map .str))]⟩

/-- The signed record of a deploy. -/
def swarmRecord (host : DeployHost) (artifact : BuildArtifact) (env : JsString) (params : Fields)
    (previousServiceSpec : JsValue) (stateful : Bool) (namedVolumes backupPlatform : JsValue) :
    Deploy DeploymentRecord := do
  let deployedAt ← currentIso host
  let id ← Deploy.generateId
  Deploy.orThrow (signDeploymentRecord host {
    id := id
    backendName := js "docker-swarm"
    target := js "homelab-docker-swarm"
    envName := env
    artifactLocation := artifact.location
    stateful := some stateful
    details := swarmDetails params previousServiceSpec deployedAt stateful namedVolumes backupPlatform
    deployedAt := deployedAt })

/-- `deploy` from its connection to its record. -/
def swarmRelease (host : DeployHost) (turns : ℕ) (artifact : BuildArtifact) (env : JsString)
    (params : Fields) (stateful : Bool) (namedVolumes backupPlatform : JsValue) :
    Deploy DeploymentRecord := do
  Deploy.getConnection (getOwn (js "manager_id") params)
  let stack := paramText params (js "stack_name")
  let inspected ← Deploy.exec [js "docker", js "service", js "inspect",
    stack ++ js "_" ++ paramText params (js "service_name")]
  let previous := previousSpec inspected
  let deployed ← Deploy.exec [js "docker", js "stack", js "deploy", js "--compose-file",
    paramText params (js "compose_file_path"), js "--with-registry-auth", stack]
  if deployed.exitCode ≠ 0 then
    swarmDeployFailed turns params previous (deployed.output.take 500)
  else swarmRecord host artifact env params previous stateful namedVolumes backupPlatform

/-- `deploy` -/
def swarmDeploy (host : DeployHost) (config : StatefulDeployConfig) (turns : ℕ)
    (artifact : BuildArtifact) (env : JsString) (rawParams : Fields) : Deploy DeploymentRecord := do
  let params ← Deploy.check (validateParameters rawParams swarmSchema)
  let namedVolumes := (getOwn (js "named_volumes") params).orElse (.arr [])
  let backupPlatform := (getOwn (js "backup_platform") params).orElse (.str (js "docker"))
  let composePath := paramText params (js "compose_file_path")
  if leavesRepo composePath then
    Deploy.raise (.plain .invalidParams
      (js "compose_file_path '" ++ composePath ++ js "' resolves outside the repo root"))
  else do
    let stateful := isStatefulTarget
      [(js "role", getOwn (js "role") params), (js "named_volumes", namedVolumes)]
    requireBackupOf config stateful backupPlatform
      (paramText params (js "stack_name") ++ js "_" ++ paramText params (js "service_name"))
    swarmRelease host turns artifact env params stateful namedVolumes backupPlatform

/-! ### Health -/

/-- `parseJsonLines` -/
def parseJsonLines (stdout : JsString) : List JsValue :=
  (stdout.splitOn 0x0A).filterMap fun line =>
    if trim line = [] then none else jsonParse (trim line)

/-- `typeof t.CurrentState === 'string'` and the small letters of it start with `word`. -/
def inState (word : JsString) (task : JsValue) : Bool :=
  match property (js "CurrentState") task with
  | .str state => word.isPrefixOf (lowerCase state)
  | _ => false

/-- `parsed[0]` -/
def firstElement : JsValue → JsValue
  | .arr (v :: _) => v
  | .obj fields => getOwn (js "0") fields
  | _ => .undefined

/-- `parseReplicaCount` -/
def parseReplicaCount (inspectStdout : JsString) : JsNumber :=
  let spec := property (js "Spec") (firstElement ((jsonParse inspectStdout).getD .null))
  let mode := property (js "Replicated") (property (js "Mode") spec)
  match property (js "Replicas") mode with
  | .num replicas => replicas
  | _ => .ofNat 0

/-- What the tasks of a service say of its health; a task that is `null` throws. -/
def judgeTasks (tasks : List JsValue) (replicas : JsNumber) : Except JsString (Bool × JsValue) := do
  let _ ← tasks.mapM fun t => readProperty t (js "CurrentState")
  let running := (tasks.filter (inState (js "running"))).length
  match tasks.find? (inState (js "failed")) with
  | some failed => return (false, (property (js "Error") failed).orElse (.str (js "task failed")))
  | none =>
    if (JsNumber.ofNat running).strictEq replicas && (JsNumber.ofNat 0).lt replicas then
      return (true, .undefined)
    else return (false, .str ((JsNumber.ofNat running).toText ++ js "/" ++ replicas.toText ++
      js " tasks running"))

/-- `healthCheck` -/
def swarmHealthCheck (host : DeployHost) (record : DeploymentRecord) : Deploy HealthStatus := do
  let details := record.payload.details
  Deploy.getConnection (getOwn (js "manager_id") details)
  let start ← Deploy.now
  let stack ← templateOf (getOwn (js "stack_name") details)
  let name ← templateOf (getOwn (js "service_name") details)
  let service := stack ++ js "_" ++ name
  let outcome ← caughtProbe do
    let ps ← Deploy.exec [js "docker", js "service", js "ps", service, js "--format", js "json",
      js "--no-trunc"]
    let inspected ← Deploy.exec [js "docker", js "service", js "inspect", service]
    if ps.exitCode = 0 ∧ inspected.exitCode = 0 then
      Deploy.orThrow (judgeTasks (parseJsonLines ps.stdout) (parseReplicaCount inspected.stdout))
    else return (false, .str (js "service inspect failed"))
  reportProbe host start outcome

/-! ### What is asked -/

variable {P : DeployAsk → Prop}

theorem asks_awaitUpdate {service : JsString} {deadline turns : ℕ} (hnow : P .now)
    (hexec : ∀ words, P (.exec (js "docker" :: js "service" :: words))) (hsleep : ∀ ms, P (.sleep ms)) :
    (awaitUpdate service deadline turns).Asks P := by
  induction turns with
  | zero => trivial
  | succ turns ih =>
    apply asks_bind (asks_put hnow)
    intro t
    split_ifs with hdeadline
    · apply asks_bind (asks_call (hexec _))
      intro state
      split_ifs with hcompleted
      · trivial
      · exact asks_bind (asks_put (hsleep _)) fun _ => ih
    · trivial

theorem asks_swarmAttemptRollback {turns : ℕ} {stackName serviceName : JsValue} (hnow : P .now)
    (hexec : ∀ words, P (.exec (js "docker" :: js "service" :: words))) (hsleep : ∀ ms, P (.sleep ms)) :
    (swarmAttemptRollback turns stackName serviceName).Asks P := by
  apply asks_bind (asks_templateOf _)
  intro stack
  apply asks_bind (asks_templateOf _)
  intro name
  apply asks_bind (asks_call (hexec _))
  intro result
  split_ifs with hexit
  · trivial
  · apply asks_bind (asks_put hnow)
    intro t
    apply asks_bind (asks_awaitUpdate hnow hexec hsleep)
    intro completed
    split_ifs <;> trivial

end Homelab
