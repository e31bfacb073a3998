import Homelab.BackupVerify
import Homelab.DeployParams
import Homelab.Dialogue
import Homelab.Host
import Homelab.NodePath
import Homelab.Storable

/-! What the deploy backends have in common: artifacts, signed records, and the collaborators
that they ask. -/
namespace Homelab
open Js Path Dialogue

/-! ### Records -/

structure BuildArtifact where
  kind : JsString
  location : JsString
  checksum : JsString
  metadata : Fields

/-- What a build is called with, as far as a backend reads it. -/
structure BuildContext where
  commitSha : JsString
  params : Fields

structure DeploymentRecordPayload where
  id : JsString
  backendName : JsString
  target : JsString
  envName : JsString
  artifactLocation : JsString
  stateful : Option Bool
  details : Fields
  deployedAt : JsString

def DeploymentRecordPayload.fields (p : DeploymentRecordPayload) : Fields :=
  [(js "id", .str p.id), (js "backendName", .str p.backendName), (js "target", .str p.target),
    (js "envName", .str p.envName), (js "artifactLocation", .str p.artifactLocation)] ++
  (p.stateful.map fun b => (js "stateful", .bool b)).toList ++
  [(js "details", .obj p.details), (js "deployedAt", .str p.deployedAt)]

structure DeploymentRecord where
  payload : DeploymentRecordPayload
  hmac : JsString

def DeploymentRecord.object (r : DeploymentRecord) : JsValue :=
  .obj [(js "payload", .obj r.payload.fields), (js "hmac", .str r.hmac)]

/-- The machine that deploys: its secret, where its data is, SHA-256 in hexadecimal, and
`new Date(ms).toISOString()`, which throws on a time that no date can hold. -/
structure DeployHost extends HmacHost where
  dataDir : JsString
  sha256 : JsString → JsString
  isoString : ℕ → Except JsString JsString

def signDeploymentRecord (host : DeployHost) (payload : DeploymentRecordPayload) :
    Except JsString DeploymentRecord := do
  let signed ← signPayload host.toHmacHost (.ofJs (.obj payload.fields))
  return ⟨payload, signed.hmac⟩

def verifyDeploymentRecord (host : DeployHost) (record : DeploymentRecord) : Bool :=
  verifyPayload host.toHmacHost record.object

/-- A probe; the detail is `undefined` when there is none. -/
structure HealthCheckProbe where
  timestamp : JsString
  success : Bool
  latencyMs : ℤ
  detail : JsValue

structure HealthStatus where
  healthy : Bool
  checks : List HealthCheckProbe
  unhealthyReason : JsValue

structure RollbackResult where
  success : Bool
  restoredArtifactId : Option JsString
  errors : List JsString

/-! ### Collaborators -/

/-- What is thrown: a `DeployError` or another error. -/
inductive DeployFailure
  | deploy (e : DeployError)
  | error (message : JsString)

def DeployFailure.message : DeployFailure → JsString
  | .deploy e => e.message
  | .error message => message

/-- Why there is no result: something is thrown, or a loop is still polling when the observation
ends. -/
inductive DeployStop
  | thrown (e : DeployFailure)
  | polling

/-- What emhttp says of a container; a configuration that it leaves out is `undefined`. -/
structure ContainerInspect where
  running : Bool
  health : Option JsString
  config : JsValue

/-- What emhttp says of a pull; what it leaves out is `undefined`. -/
structure PullStatus where
  status : JsString
  digest : JsValue
  sizeBytes : JsValue
  error : JsValue

/-- The questions of the backends. A command is given by its words, which a space joins. -/
inductive DeployAsk
  | now
  | sleep (ms : ℕ)
  | generateId
  | verifyBackup (input : VerifyInput)
  | getConnection (id : JsValue)
  | exec (words : List JsString)
  | getClient (hostId : JsValue)
  | getShares
  | pullImage (image : JsString)
  | pullStatus (image : JsString)
  | inspectContainer (name : JsValue)
  | stopContainer (name : JsValue)
  | removeContainer (name : JsValue)
  | addContainer (payload : JsValue)
  | startContainer (name : JsValue)
  | readRecord (path : JsString)
  | writeRecord (path : JsString) (signed : Signed)
  | resolveContextName (clusterId : JsValue)
  | acquire (clusterId : JsValue) (op scope : JsString)
  | k8sDeploy (artifact : BuildArtifact) (env : JsString) (params : Fields)
  | k8sHealthCheck (record : DeploymentRecord)
  | k8sRollback (record : DeploymentRecord)

/-- What a collaborator rejects with or resolves to; a record is what `JSON.parse` makes of its
file, if there is one, and a credential is its kubeconfig. -/
def DeployAnswer : DeployAsk → Type
  | .now => ℕ
  | .sleep _ => Unit
  | .generateId => JsString
  | .verifyBackup _ => Except DeployFailure JsValue
  | .getConnection _ => Except DeployFailure Unit
  | .exec _ => Except DeployFailure CommandResult
  | .getClient _ => Except DeployFailure Unit
  | .getShares => Except DeployFailure (List JsString)
  | .pullImage _ => Except DeployFailure Bool
  | .pullStatus _ => Except DeployFailure PullStatus
  | .inspectContainer _ => Except DeployFailure (Option ContainerInspect)
  | .stopContainer _ => Except DeployFailure Unit
  | .removeContainer _ => Except DeployFailure Unit
  | .addContainer _ => Except DeployFailure Unit
  | .startContainer _ => Except DeployFailure Unit
  | .readRecord _ => Except DeployFailure (Option JsValue)
  | .writeRecord _ _ => Except DeployFailure Unit
  | .resolveContextName _ => Except DeployFailure JsString
  | .acquire _ _ _ => Except DeployFailure JsValue
  | .k8sDeploy _ _ _ => Except DeployFailure DeploymentRecord
  | .k8sHealthCheck _ => Except DeployFailure HealthStatus
  | .k8sRollback _ => Except DeployFailure RollbackResult

abbrev Deploy := Dialogue DeployAnswer DeployStop

namespace Deploy

variable {α : Type}

/-- The answer of a collaborator that may reject. -/
def settle : Except DeployFailure α → Deploy α
  | .ok a => .done a
  | .error e => .fail (.thrown e)

def now : Deploy ℕ := put DeployAsk.now

def sleep (ms : ℕ) : Deploy Unit := put (DeployAsk.sleep ms)

def generateId : Deploy JsString := put DeployAsk.generateId

def verifyBackup (input : VerifyInput) : Deploy JsValue := .ask (.verifyBackup input) fun r => settle r

def getConnection (id : JsValue) : Deploy Unit := .ask (.getConnection id) fun r => settle r

def exec (words : List JsString) : Deploy CommandResult := .ask (.exec words) fun r => settle r

def getClient (hostId : JsValue) : Deploy Unit := .ask (.getClient hostId) fun r => settle r

def getShares : Deploy (List JsString) := .ask .getShares fun r => settle r

/-- Whether the request was accepted. -/
def requestPull (image : JsString) : Deploy Bool := .ask (.pullImage image) fun r => settle r

def pullStatus (image : JsString) : Deploy PullStatus := .ask (.pullStatus image) fun r => settle r

def inspectContainer (name : JsValue) : Deploy (Option ContainerInspect) :=
  .ask (.inspectContainer name) fun r => settle r

def stopContainer (name : JsValue) : Deploy Unit := .ask (.stopContainer name) fun r => settle r

def removeContainer (name : JsValue) : Deploy Unit := .ask (.removeContainer name) fun r => settle r

def addContainer (payload : JsValue) : Deploy Unit := .ask (.addContainer payload) fun r => settle r

def startContainer (name : JsValue) : Deploy Unit := .ask (.startContainer name) fun r => settle r

def readRecord (path : JsString) : Deploy (Option JsValue) := .ask (.readRecord path) fun r => settle r

def writeRecord (path : JsString) (signed : Signed) : Deploy Unit :=
  .ask (.writeRecord path signed) fun r => settle r

def resolveContextName (clusterId : JsValue) : Deploy JsString :=
  .ask (.resolveContextName clusterId) fun r => settle r

def acquire (clusterId : JsValue) (op scope : JsString) : Deploy JsValue :=
  .ask (.acquire clusterId op scope) fun r => settle r

def k8sDeploy (artifact : BuildArtifact) (env : JsString) (params : Fields) : Deploy DeploymentRecord :=
  .ask (.k8sDeploy artifact env params) fun r => settle r

def k8sHealthCheck (record : DeploymentRecord) : Deploy HealthStatus :=
  .ask (.k8sHealthCheck record) fun r => settle r

def k8sRollback (record : DeploymentRecord) : Deploy RollbackResult :=
  .ask (.k8sRollback record) fun r => settle r

def raise (e : DeployError) : Deploy α := .fail (.thrown (.deploy e))

/-- A check that throws a `DeployError`. -/
def check : Except DeployError α → Deploy α
  | .ok a => .done a
  | .error e => raise e

/-- A call that throws an error of the language or of the standard library. -/
def orThrow : Except JsString α → Deploy α
  | .ok a => .done a
  | .error message => .fail (.thrown (.error message))

/-- `try { m } catch (e) { handle(e) }` -/
def catching (m : Deploy α) (handle : DeployFailure → Deploy α) : Deploy α :=
  m.attempt.bind fun r =>
    match r with
    | .ok a => .done a
    | .error .polling => .fail .polling
    | .error (.thrown e) => handle e

/-- The message of what `m` throws, if it throws. -/
def failureOf (m : Deploy Unit) : Deploy (Option JsString) :=
  catching (m.bind fun _ => .done none) fun e => .done (some e.message)

end Deploy

/-- `params[name]` in a template literal, where it has been checked to be a text. -/
def paramText (params : Fields) (name : JsString) : JsString := (getOwn name params).coerce

/-- `stderr || stdout` -/
def CommandResult.output (r : CommandResult) : JsString := if r.stderr = [] then r.stdout else r.stderr

/-- Capital letters of ASCII as small ones; what is compared with it is of ASCII. -/
def lowerCase (s : JsString) : JsString :=
  s.map fun c => if 0x41 ≤ c.toNat ∧ c.toNat ≤ 0x5A then (c.toNat+0x20).toUInt16 else c

/-- `new Date(this.deps.now()).toISOString()` -/
def currentIso (host : DeployHost) : Deploy JsString := do
  let t ← Deploy.now
  Deploy.orThrow (host.isoString t)

/-- A value in a template literal, which may throw. -/
def templateOf (v : JsValue) : Deploy JsString :=
  if v.throwsOnCoerce then .fail (.thrown (.error coercionMessage)) else .done v.coerce

/-- The gate of the two backends that know stateful targets: a stateful target needs a backup. -/
def requireBackupOf (config : StatefulDeployConfig) (stateful : Bool) (platform : JsValue)
    (target : JsString) : Deploy Unit :=
  if stateful && config.requireBackup then do
    let _ ← Deploy.verifyBackup ⟨platform.coerce, target, config.backupFreshnessOverrides⟩
    return ()
  else return ()

/-- `SAFE_KEY` -/
def safeKey (s : JsString) : Bool :=
  s ≠ [] && s.all fun c => isAlphanumeric c || c ∈ js "_-"

/-- Where the record of a key is kept; the directory is named after the platform. -/
def recordPath (host : DeployHost) (platform key : JsString) : Except JsString JsString :=
  if safeKey key then .ok (join [join [host.dataDir, platform], key ++ js ".json"])
  else .error (js "invalid " ++ platform ++ js " record key: " ++ key)

/-- `persistSignedRecord`, whose write may fail. -/
def persistRecord (host : DeployHost) (path : JsString) (payload : Fields) : Deploy Unit := do
  let signed ← Deploy.orThrow (signPayload host.toHmacHost (.ofJs (.obj payload)))
  Deploy.writeRecord path signed

/-- What every health check returns of its one probe. -/
def reportProbe (host : DeployHost) (start : ℕ) (outcome : Bool × JsValue) :
    Deploy HealthStatus := do
  let timestamp ← currentIso host
  let stop ← Deploy.now
  return ⟨outcome.1, [⟨timestamp, outcome.1, (stop : ℤ)-start, outcome.2⟩],
    if outcome.1 then .undefined else outcome.2⟩

/-- A probe whose errors become its detail. -/
def caughtProbe (m : Deploy (Bool × JsValue)) : Deploy (Bool × JsValue) :=
  Deploy.catching m fun e => .done (false, .str e.message)

/-! ### Calls that do not reject -/

/-- A computation that goes on after a call and returns something has had its answer. -/
theorem talks_settle {α β : Type} {May : ∀ q, DeployAnswer q → Prop} {answer : Except DeployFailure α}
    {f : α → Deploy β} {log : List (Exchange DeployAnswer)} {b : β}
    (h : Talks May ((Deploy.settle answer).bind f) log (.ok b)) :
    ∃ a, answer = .ok a ∧ Talks May (f a) log (.ok b) := by
  cases answer with
  | error e =>
    obtain ⟨_, hcontra⟩ := talks_fail.mp h
    cases hcontra
  | ok a => exact ⟨a, rfl, h⟩

/-! ### What the common parts ask -/

variable {P : DeployAsk → Prop} {α : Type}

theorem asks_settle (r : Except DeployFailure α) : (Deploy.settle r).Asks P := by
  cases r <;> trivial

/-- A call of a collaborator asks one question. -/
theorem asks_call {q : DeployAsk} {answer : DeployAnswer q → Except DeployFailure α} (h : P q) :
    (Dialogue.ask q fun a => Deploy.settle (answer a) : Deploy α).Asks P :=
  ⟨h, fun a => asks_settle (answer a)⟩

theorem asks_put {q : DeployAsk} (h : P q) :
    (put q : Deploy (DeployAnswer q)).Asks P := ⟨h, fun _ => trivial⟩

theorem asks_check (r : Except DeployError α) : (Deploy.check r).Asks P := by
  cases r <;> trivial

theorem asks_orThrow (r : Except JsString α) : (Deploy.orThrow r).Asks P := by
  cases r <;> trivial

theorem asks_check_bind {β : Type} {x : Except DeployError β} {f : β → Deploy α}
    (h : ∀ b, x = .ok b → (f b).Asks P) : ((Deploy.check x).bind f).Asks P := by
  cases x with
  | error e => trivial
  | ok b => exact h b rfl

theorem asks_orThrow_bind {β : Type} {x : Except JsString β} {f : β → Deploy α}
    (h : ∀ b, x = .ok b → (f b).Asks P) : ((Deploy.orThrow x).bind f).Asks P := by
  cases x with
  | error message => trivial
  | ok b => exact h b rfl

theorem asks_templateOf (v : JsValue) : (templateOf v).Asks P := by
  rw [templateOf]
  split_ifs <;> trivial

theorem asks_catching {m : Deploy α} {handle : DeployFailure → Deploy α} (hm : m.Asks P)
    (hhandle : ∀ e, (handle e).Asks P) : (Deploy.catching m handle).Asks P := by
  apply asks_bind (asks_attempt hm)
  intro result
  cases result with
  | ok a => trivial
  | error stop =>
    cases stop with
    | thrown e => exact hhandle e
    | polling => trivial

theorem asks_failureOf {m : Deploy Unit} (hm : m.Asks P) : (Deploy.failureOf m).Asks P :=
  asks_catching (asks_bind hm fun _ => trivial) fun _ => trivial

theorem asks_currentIso {host : DeployHost} (h : P .now) : (currentIso host).Asks P :=
  asks_bind (asks_put h) fun _ => asks_orThrow _

theorem asks_persistRecord {host : DeployHost} {path : JsString} {payload : Fields}
    (h : ∀ signed, P (.writeRecord path signed)) : (persistRecord host path payload).Asks P :=
  asks_bind (asks_orThrow _) fun signed => asks_call (h signed)

end Homelab
