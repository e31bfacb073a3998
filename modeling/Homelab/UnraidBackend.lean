import Homelab.DeployBackend

/-! The Unraid backend: containers that are swapped over the emhttp API. -/
namespace Homelab
open Js Path Dialogue

/-! ### Parameters -/

/-- `^\d{1,5}:\d{1,5}(\/(tcp|udp))?$` -/
def portMappingRegex (s : JsString) : Bool :=
  let host := spanDigits s
  let container := spanDigits host.2.tail
  let upToFive (ds : List ℕ) : Bool := 1 ≤ ds.length && ds.length ≤ 5
  upToFive host.1 && host.2.head? == some 0x3A && upToFive container.1 &&
    (container.2 == [] || container.2 == js "/tcp" || container.2 == js "/udp")

/-- `PARAM_SCHEMA` of `unraid.ts` -/
def unraidSchema : List (JsString × ParamSchema) :=
  [(js "host_id", requiredText .identifier), (js "container_name", requiredText .identifier),
    (js "image_uri", requiredText .shellSafeArg), (js "registry_url", optionalText (some .url)),
    (js "network_mode", .string false (.str (js "bridge"))
      (some [js "bridge", js "host", js "none"]) none none),
    (js "port_mappings", .array false (.arr [])
      (some (.string false .undefined none (some portMappingRegex) none))),
    (js "storage_mounts", .array false (.arr []) (some (.object false .undefined none (some
      [(js "host_path", requiredText .absolutePath),
        (js "container_path", requiredText .absolutePath),
        (js "readonly", .boolean false (.bool false))])))),
    (js "env", .object false (.obj []) (some (optionalText none)) none),
    (js "health_url", optionalText (some .url)),
    (js "health_timeout_seconds", numberIn 120 10 600), (js "role", optionalText none),
    (js "backup_platform", optionalText none)]

/-! ### Pulling an image -/

/-- What an attempt to pull comes to. -/
inductive PullAttempt
  | pulled (digest sizeBytes : JsValue)
  | transient (error : JsString)
  | permanent (error : JsValue)

/-- The driver that `build` passes to `pullImage`; whatever it throws is transient. -/
def pullOnce (image : JsString) : Deploy PullAttempt :=
  Deploy.catching (do
    let accepted ← Deploy.requestPull image
    if accepted then do
      let status ← Deploy.pullStatus image
      if status.status = js "complete" then return .pulled status.digest status.sizeBytes
      else if status.status = js "failed" then
        return .permanent (status.error.orElse (.str (js "pull failed")))
      else return .transient (js "pull in-progress")
    else return .transient (js "pull request rejected")) fun e => .done (.transient e.message)

def pullFailed {α : Type} (retriable : Bool) (message : JsString) : Deploy α :=
  Deploy.raise ⟨.imagePullFailed, message, retriable, []⟩

def pullFailedFor {α : Type} (error : JsValue) : Deploy α := do
  let text ← templateOf error
  pullFailed false (js "image pull failed (non-retriable): " ++ text)

/-- The attempts of `pullImage`, each with its backoff. -/
def pullAttempts (image lastError : JsString) : List ℕ → Deploy (JsString × JsNumber)
  | [] => pullFailed true (js "image pull failed after 3 attempts: " ++ lastError)
  | backoff :: rest => do
    let attempt ← pullOnce image
    match attempt with
    | .pulled (.str digest) (.num size) => return (digest, size)
    | .pulled _ _ => pullFailedFor (.str (js "pull failed"))
    | .permanent error => pullFailedFor error
    | .transient error =>
      if rest = [] then pullAttempts image error rest
      else do
        Deploy.sleep backoff
        pullAttempts image error rest

/-- `pullImage` of `registry-pull.ts` -/
def pullImage (host : DeployHost) (image : JsString) : Deploy (JsString × JsNumber) := do
  let pulled ← pullAttempts image (js "unknown error") [2000, 4000, 8000]
  let _ ← currentIso host
  return pulled

/-- The configuration that a build captures: `null` when there is no container or emhttp does
not say its configuration. -/
def capturedConfig : Option ContainerInspect → JsValue
  | none => .null
  | some inspect => if isUndefined inspect.config then .null else inspect.config

/-- `build` -/
def unraidBuild (host : DeployHost) (ctx : BuildContext) : Deploy BuildArtifact := do
  let params ← Deploy.check (validateParameters ctx.params unraidSchema)
  let imageUri := paramText params (js "image_uri")
  Deploy.getClient (getOwn (js "host_id") params)
  let (digest, _) ← pullImage host imageUri
  let inspect ← Deploy.inspectContainer (getOwn (js "container_name") params)
  return ⟨js "docker-image", js "docker://" ++ imageUri ++ js "@" ++ digest, digest,
    [(js "host_id", getOwn (js "host_id") params),
      (js "container_name", getOwn (js "container_name") params),
      (js "image_uri", getOwn (js "image_uri") params), (js "digest", .str digest),
      (js "previous_container_config", capturedConfig inspect)]⟩

/-! ### Rolling back -/

/-- The loop of `pollForRunning`. -/
def awaitContainer (name : JsValue) (deadline : ℕ) : ℕ → Deploy Unit
  | 0 => .fail .polling
  | turns+1 => do
    let t ← Deploy.now
    if t < deadline then do
      let inspect ← Deploy.inspectContainer name
      if inspect.any ContainerInspect.running then return ()
      else do
        Deploy.sleep 2000
        awaitContainer name deadline turns
    else do
      let text ← templateOf name
      Deploy.raise (.plain .deployFailed
        (js "container " ++ text ++ js " did not reach running within 60000ms"))

/-- `pollForRunning`, always with a timeout of 60 s. -/
def pollForRunning (turns : ℕ) (name : JsValue) : Deploy Unit := do
  let t ← Deploy.now
  awaitContainer name (t+60000) turns

/-- The calls that put the old container back. -/
def restoreContainer (turns : ℕ) (name previousConfig : JsValue) : Deploy Unit := do
  Deploy.stopContainer name
  Deploy.removeContainer name
  Deploy.addContainer previousConfig
  Deploy.startContainer name
  pollForRunning turns name

/-- `attemptRollback` -/
def unraidAttemptRollback (turns : ℕ) (name previousConfig : JsValue) : Deploy RollbackResult := do
  let failure ← Deploy.failureOf (restoreContainer turns name previousConfig)
  match failure with
  | some message => return ⟨false, none, [message]⟩
  | none =>
    let image ← templateOf ((property (js "image") previousConfig).orElse (.str (js "unknown")))
    return ⟨true, some (js "docker://" ++ image), []⟩

/-- `rollback` -/
def unraidRollback (turns : ℕ) (record : DeploymentRecord) : Deploy RollbackResult :=
  let details := record.payload.details
  let previousConfig := getOwn (js "previous_container_config") details
  if isNullish previousConfig then
    return ⟨false, none, [js "no previous container to roll back to"]⟩
  else do
    Deploy.getClient (getOwn (js "host_id") details)
    unraidAttemptRollback turns (getOwn (js "container_name") details) previousConfig

/-! ### Deploying -/

/-- The elements of an array parameter. -/
def arrayParam (params : Fields) (name : JsString) : List JsValue :=
  match getOwn name params with
  | .arr elems => elems
  | _ => []

def underShare (mount : JsValue) (share : JsString) : Bool :=
  match property (js "host_path") mount with
  | .str path => path == share || (share ++ [slash]).isPrefixOf path
  | _ => false

/-- Every mount has to be under a share. -/
def checkMounts (mounts : List JsValue) : Deploy Unit :=
  if mounts = [] then return ()
  else do
    let shares ← Deploy.getShares
    match mounts.find? fun m => !shares.any (underShare m) with
    | none => return ()
    | some mount => Deploy.raise (.plain .invalidParams
        (js "storage_mounts[].host_path '" ++ (property (js "host_path") mount).coerce ++
          js "' is not under any Unraid share"))

/-- `unraidRecordPath` -/
def unraidRecordPath (host : DeployHost) (containerName : JsString) : Except JsString JsString :=
  recordPath host (js "unraid") containerName

/-- The container that `deploy` adds. -/
def containerPayload (params : Fields) (image : JsString) : JsValue :=
  .obj [(js "name", getOwn (js "container_name") params), (js "image", .str image),
    (js "network_mode", (getOwn (js "network_mode") params).orElse (.str (js "bridge"))),
    (js "ports", .arr (arrayParam params (js "port_mappings"))),
    (js "volumes", .arr (arrayParam params (js "storage_mounts"))),
    (js "env", (getOwn (js "env") params).orElse (.obj []))]

/-- The calls that put the new container in place. -/
def swapContainer (turns : ℕ) (name payload : JsValue) : Deploy Unit := do
  Deploy.addContainer payload
  Deploy.startContainer name
  pollForRunning turns name

/-- What follows a swap that failed. -/
def swapFailed (turns : ℕ) (name previousConfig : JsValue) (e : DeployFailure) : Deploy Unit :=
  if isNullish previousConfig then .fail (.thrown e)
  else do
    let rollback ← unraidAttemptRollback turns name previousConfig
    Deploy.raise ⟨.deployFailed, e.message, false,
      [(js "rollback_attempted", .bool true), (js "rollback_success", .bool rollback.success),
        (js "rollback_errors", .arr (rollback.errors.map .str))]⟩

/-- `details` of the record of a deploy -/
def unraidDetails (params metadata : Fields) (previousConfig : JsValue) (startedAt : JsString)
    (stateful : Bool) (backupPlatform : JsValue) : Fields :=
  [(js "host_id", getOwn (js "host_id") params),
    (js "container_name", getOwn (js "container_name") params),
    (js "image_uri", getOwn (js "image_uri") metadata), (js "digest", getOwn (js "digest") metadata),
    (js "previous_container_config", previousConfig), (js "started_at", .str startedAt)] ++
  if stateful then [(js "backup_platform", backupPlatform)] else []

/-- The records of a deploy: the one for the next rollback is persisted, the other returned. -/
def unraidRecord (host : DeployHost) (artifact : BuildArtifact) (env : JsString) (params : Fields)
    (previousConfig : JsValue) (stateful : Bool) (backupPlatform : JsValue) :
    Deploy DeploymentRecord := do
  let startedAt ← currentIso host
  let id ← Deploy.generateId
  let path ← Deploy.orThrow (unraidRecordPath host (paramText params (js "container_name")))
  persistRecord host path
    [(js "container_name", getOwn (js "container_name") params), (js "config", previousConfig)]
  Deploy.orThrow (signDeploymentRecord host {
    id := id
    backendName := js "unraid"
    target := js "homelab-unraid"
    envName := env
    artifactLocation := artifact.location
    stateful := some stateful
    details := unraidDetails params artifact.metadata previousConfig startedAt stateful backupPlatform
    deployedAt := startedAt })

/-- The container that exists is stopped before the new one is added. -/
def stopExisting (existing : Option ContainerInspect) (name : JsValue) : Deploy Unit :=
  if existing.isSome then Deploy.stopContainer name else return ()

/-- `deploy` from the first look at the existing container. -/
def unraidRelease (host : DeployHost) (turns : ℕ) (artifact : BuildArtifact) (env : JsString)
    (params : Fields) (stateful : Bool) (backupPlatform : JsValue) : Deploy DeploymentRecord := do
  let name := getOwn (js "container_name") params
  let previousConfig := (getOwn (js "previous_container_config") artifact.metadata).orElse .null
  let existing ← Deploy.inspectContainer name
  stopExisting existing name
  let imageUri ← templateOf (getOwn (js "image_uri") artifact.metadata)
  let digest ← templateOf (getOwn (js "digest") artifact.metadata)
  Deploy.catching (swapContainer turns name (containerPayload params (imageUri ++ js "@" ++ digest)))
    (swapFailed turns name previousConfig)
  unraidRecord host artifact env params previousConfig stateful backupPlatform

/-- `deploy` -/
def unraidDeploy (host : DeployHost) (config : StatefulDeployConfig) (turns : ℕ)
    (artifact : BuildArtifact) (env : JsString) (rawParams : Fields) : Deploy DeploymentRecord := do
  let params ← Deploy.check (validateParameters rawParams unraidSchema)
  let backupPlatform := (getOwn (js "backup_platform") params).orElse (.str (js "unraid"))
  Deploy.getClient (getOwn (js "host_id") params)
  let storageMounts := arrayParam params (js "storage_mounts")
  checkMounts storageMounts
  let stateful := isStatefulTarget
    [(js "role", getOwn (js "role") params), (js "storage_mounts", .arr storageMounts)]
  requireBackupOf config stateful backupPlatform (paramText params (js "container_name"))
  unraidRelease host turns artifact env params stateful backupPlatform

/-! ### Health -/

/-- What emhttp's answer says of the health of the container. -/
def judgeContainer (name : JsValue) : Option ContainerInspect → Deploy (Bool × JsValue)
  | none => do
    let text ← templateOf name
    return (false, .str (js "container " ++ text ++ js " not found"))
  | some inspect =>
    if inspect.health = some (js "healthy") then return (true, .undefined)
    else return (false,
      .str (js "state.health.status=" ++ inspect.health.getD (js "unknown")))

/-- `healthCheck` -/
def unraidHealthCheck (host : DeployHost) (record : DeploymentRecord) : Deploy HealthStatus := do
  let details := record.payload.details
  let name := getOwn (js "container_name") details
  Deploy.getClient (getOwn (js "host_id") details)
  let start ← Deploy.now
  let outcome ← caughtProbe do
    let inspect ← Deploy.inspectContainer name
    judgeContainer name inspect
  reportProbe host start outcome

/-! ### What is asked -/

variable {P : DeployAsk → Prop} {turns : ℕ} {name previousConfig : JsValue}

theorem asks_awaitContainer {deadline : ℕ} (hnow : P .now)
    (hinspect : ∀ name, P (.inspectContainer name)) (hsleep : ∀ ms, P (.sleep ms)) :
    (awaitContainer name deadline turns).Asks P := by
  induction turns with
  | zero => trivial
  | succ turns ih =>
    apply asks_bind (asks_put hnow)
    intro t
    split_ifs with hdeadline
    · apply asks_bind (asks_call (hinspect _))
      intro inspect
      split_ifs with hrunning
      · trivial
      · exact asks_bind (asks_put (hsleep _)) fun _ => ih
    · exact asks_bind (asks_templateOf _) fun _ => trivial

/-- The questions of a poll and of the calls that change a container. -/
structure ContainerCalls (P : DeployAsk → Prop) : Prop where
  now : P .now
  sleep : ∀ ms, P (.sleep ms)
  inspect : ∀ name, P (.inspectContainer name)
  stop : ∀ name, P (.stopContainer name)
  remove : ∀ name, P (.removeContainer name)
  add : ∀ payload, P (.addContainer payload)
  start : ∀ name, P (.startContainer name)

theorem asks_pollForRunning (h : ContainerCalls P) : (pollForRunning turns name).Asks P :=
  asks_bind (asks_put h.now) fun _ => asks_awaitContainer h.now h.inspect h.sleep

theorem asks_swapContainer {payload : JsValue} (h : ContainerCalls P) :
    (swapContainer turns name payload).Asks P := by
  apply asks_bind (asks_call (h.add _))
  intro added
  apply asks_bind (asks_call (h.start _))
  intro started
  exact asks_pollForRunning h

theorem asks_unraidAttemptRollback (h : ContainerCalls P) :
    (unraidAttemptRollback turns name previousConfig).Asks P := by
  have hrestore : (restoreContainer turns name previousConfig).Asks P := by
    apply asks_bind (asks_call (h.stop _))
    intro stopped
    apply asks_bind (asks_call (h.remove _))
    intro removed
    exact asks_swapContainer h
  apply asks_bind (asks_failureOf hrestore)
  intro failure
  cases failure with
  | some message => trivial
  | none => exact asks_bind (asks_templateOf _) fun _ => trivial

end Homelab
