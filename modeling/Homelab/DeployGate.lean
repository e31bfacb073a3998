import Homelab.SwarmBackend
import Homelab.UnraidBackend

/-! The backup gate of the Swarm and the Unraid backend: what a deploy of a stateful target may
ask before its backup has been verified. -/
namespace Homelab
open Js Path Dialogue

/-! ### The two backends -/

inductive StatefulBackend
  | swarm
  | unraid
deriving DecidableEq

namespace StatefulBackend

def schema : StatefulBackend → List (JsString × ParamSchema)
  | swarm => swarmSchema
  | unraid => unraidSchema

/-- The platform of a backup when `backup_platform` is not given. -/
def defaultPlatform : StatefulBackend → JsString
  | swarm => js "docker"
  | unraid => js "unraid"

def deploy (host : DeployHost) (config : StatefulDeployConfig) (turns : ℕ)
    (artifact : BuildArtifact) (env : JsString) (rawParams : Fields) :
    StatefulBackend → Deploy DeploymentRecord
  | swarm => swarmDeploy host config turns artifact env rawParams
  | unraid => unraidDeploy host config turns artifact env rawParams

/-- The platform whose backup is asked for. -/
def backupPlatform (b : StatefulBackend) (params : Fields) : JsString :=
  ((getOwn (js "backup_platform") params).orElse (.str b.defaultPlatform)).coerce

end StatefulBackend

/-- `docker stack deploy` and `docker service rollback` -/
def changingCommands : List (List JsString) :=
  [[js "docker", js "stack", js "deploy"], [js "docker", js "service", js "rollback"]]

/-- The calls that change the target or the records on disk. -/
def DeployAsk.changes : DeployAsk → Bool
  | .exec words => changingCommands.any fun c => c.isPrefixOf words
  | .stopContainer _ => true
  | .removeContainer _ => true
  | .addContainer _ => true
  | .startContainer _ => true
  | .writeRecord _ _ => true
  | _ => false

def DeployAsk.checksBackup : DeployAsk → Bool
  | .verifyBackup _ => true
  | _ => false

def ChangesState (x : Exchange DeployAnswer) : Prop := x.ask.changes = true

/-- A backup of the platform has been verified. -/
def BackupVerified (platform : JsString) : Exchange DeployAnswer → Prop
  | ⟨.verifyBackup input, .ok _⟩ => input.platform = platform
  | _ => False

/-- `verifyBackup` has rejected. -/
def BackupRefused (e : DeployFailure) : Exchange DeployAnswer → Prop
  | ⟨.verifyBackup _, .error e'⟩ => e' = e
  | _ => False

/-- A run changes nothing before a backup of the platform has been verified, and when that is
refused it rejects with the refusal and has changed nothing. -/
structure Gated (platform : JsString) (log : List (Exchange DeployAnswer))
    (r : Except DeployStop DeploymentRecord) : Prop where
  verified : NotBefore (BackupVerified platform) ChangesState log
  refused : ∀ e, (∃ x ∈ log, BackupRefused e x) →
    r = .error (.thrown e) ∧ ∀ x ∈ log, ¬ ChangesState x

/-- Collaborators may answer anything. -/
def anyAnswer (q : DeployAsk) (_ : DeployAnswer q) : Prop := True

/-! ### Parts of a gated run -/

/-- Neither a change nor a look at a backup. -/
def Quiet (q : DeployAsk) : Prop := q.changes = false ∧ q.checksBackup = false

def Unchecking (q : DeployAsk) : Prop := q.checksBackup = false

variable {α : Type} {platform : JsString} {log : List (Exchange DeployAnswer)}
  {r : Except DeployStop DeploymentRecord}

theorem BackupRefused.asked {e : DeployFailure} {x : Exchange DeployAnswer} (h : BackupRefused e x) :
    x.ask.checksBackup = true := by
  obtain ⟨q, answer⟩ := x
  cases q with
  | verifyBackup input => rfl
  | _ => exact h.elim

theorem quiet_log {m : Deploy α} {r : Except DeployStop α} (hm : m.Asks Quiet)
    (h : Talks anyAnswer m log r) :
    (∀ x ∈ log, ¬ ChangesState x) ∧ ∀ e, ∀ x ∈ log, ¬ BackupRefused e x := by
  constructor
  · intro x hx hchanges
    have hquiet := (hm.of_mem h x hx).1.1
    rw [ChangesState, hquiet] at hchanges
    cases hchanges
  · intro e x hx hrefused
    have hquiet := (hm.of_mem h x hx).1.2
    rw [hrefused.asked] at hquiet
    cases hquiet

theorem gated_quiet {m : Deploy DeploymentRecord} (hm : m.Asks Quiet)
    (h : Talks anyAnswer m log r) : Gated platform log r := by
  obtain ⟨hchanges, hrefused⟩ := quiet_log hm h
  refine ⟨notBefore_of_none hchanges, fun e hx => ?_⟩
  obtain ⟨x, hx, hr⟩ := hx
  exact absurd hr (hrefused e x hx)

/-- Whatever is quiet may come first. -/
theorem gated_bind {m : Deploy α} {f : α → Deploy DeploymentRecord} (hm : m.Asks Quiet)
    (hf : ∀ a log r, Talks anyAnswer (f a) log r → Gated platform log r)
    (h : Talks anyAnswer (m.bind f) log r) : Gated platform log r := by
  rcases talks_bind.mp h with ⟨e, hfirst, rfl⟩ | ⟨a, first, second, hfirst, hsecond, rfl⟩
  · obtain ⟨hchanges, hrefused⟩ := quiet_log hm hfirst
    refine ⟨notBefore_of_none hchanges, fun e hx => ?_⟩
    obtain ⟨x, hx, hr⟩ := hx
    exact absurd hr (hrefused e x hx)
  · obtain ⟨hchanges, hrefused⟩ := quiet_log hm hfirst
    have hgated := hf a second r hsecond
    refine ⟨notBefore_append (notBefore_of_none hchanges) (Or.inr hgated.verified), fun e hx => ?_⟩
    obtain ⟨x, hx, hr⟩ := hx
    rcases List.mem_append.mp hx with hx | hx
    · exact absurd hr (hrefused e x hx)
    · obtain ⟨hresult, hnone⟩ := hgated.refused e ⟨x, hx, hr⟩
      exact ⟨hresult, List.forall_mem_append.mpr ⟨hchanges, hnone⟩⟩

/-- After the check anything may come but a second one. -/
theorem gated_verify {input : VerifyInput} {f : JsValue → Deploy DeploymentRecord}
    (hinput : input.platform = platform) (hf : ∀ a, (f a).Asks Unchecking)
    (h : Talks anyAnswer ((Deploy.verifyBackup input).bind f) log r) : Gated platform log r := by
  obtain ⟨answer, rest, _, hrest, rfl⟩ := talks_ask.mp h
  have hverify : ¬ ChangesState ⟨.verifyBackup input, answer⟩ := Bool.false_ne_true
  cases answer with
  | error e =>
    obtain ⟨rfl, rfl⟩ := talks_fail.mp hrest
    have hall : ∀ x ∈ [(⟨.verifyBackup input, .error e⟩ : Exchange DeployAnswer)],
        ¬ ChangesState x := List.forall_mem_singleton.mpr hverify
    refine ⟨notBefore_of_none hall, fun e' hx => ?_⟩
    obtain ⟨x, hx, hr⟩ := hx
    rw [List.mem_singleton.mp hx] at hr
    obtain rfl : e = e' := hr
    exact ⟨rfl, hall⟩
  | ok result =>
    refine ⟨⟨hverify, Or.inl hinput⟩, fun e hx => ?_⟩
    obtain ⟨x, hx, hr⟩ := hx
    rcases List.mem_cons.mp hx with rfl | hx
    · exact hr.elim
    · have hnone := ((hf result).of_mem hrest x hx).1
      rw [Unchecking, hr.asked] at hnone
      cases hnone

/-! ### The two deploys -/

variable {host : DeployHost} {config : StatefulDeployConfig} {turns : ℕ} {artifact : BuildArtifact}
  {env : JsString} {rawParams params : Fields}

theorem gated_requireBackup {target : JsString} {value : JsValue} {f : Unit → Deploy DeploymentRecord}
    (hrequire : config.requireBackup = true) (hf : (f ()).Asks Unchecking)
    (h : Talks anyAnswer ((requireBackupOf config true value target).bind f) log r) :
    Gated value.coerce log r := by
  have heq : requireBackupOf config true value target =
      (Deploy.verifyBackup ⟨value.coerce, target, config.backupFreshnessOverrides⟩).bind fun _ =>
        .done () := by
    rw [requireBackupOf, hrequire]
    rfl
  rw [heq, bind_assoc] at h
  exact gated_verify rfl (fun _ => hf) h

theorem asks_swarmRecord {stateful : Bool} {previous namedVolumes platform : JsValue} :
    (swarmRecord host artifact env params previous stateful namedVolumes platform).Asks Unchecking :=
  asks_bind (asks_currentIso rfl) fun _ => asks_bind (asks_put rfl) fun _ => asks_orThrow _

theorem asks_swarmRelease {stateful : Bool} {namedVolumes platform : JsValue} :
    (swarmRelease host turns artifact env params stateful namedVolumes platform).Asks Unchecking := by
  refine asks_bind (asks_call rfl) fun connected => ?_
  refine asks_bind (asks_call rfl) fun inspected => ?_
  refine asks_bind (asks_call rfl) fun deployed => ?_
  split_ifs with hexit
  · rw [swarmDeployFailed]
    split_ifs with hprevious
    · trivial
    · exact asks_bind (asks_swarmAttemptRollback rfl (fun _ => rfl) fun _ => rfl) fun _ => trivial
  · exact asks_swarmRecord

theorem unchecking_containers : ContainerCalls Unchecking :=
  ⟨rfl, fun _ => rfl, fun _ => rfl, fun _ => rfl, fun _ => rfl, fun _ => rfl, fun _ => rfl⟩

theorem asks_unraidRecord {stateful : Bool} {previous platform : JsValue} :
    (unraidRecord host artifact env params previous stateful platform).Asks Unchecking := by
  refine asks_bind (asks_currentIso rfl) fun startedAt => ?_
  refine asks_bind (asks_put rfl) fun id => ?_
  refine asks_bind (asks_orThrow _) fun path => ?_
  refine asks_bind (asks_persistRecord fun _ => rfl) fun persisted => ?_
  exact asks_orThrow _

theorem asks_unraidRelease {stateful : Bool} {platform : JsValue} :
    (unraidRelease host turns artifact env params stateful platform).Asks Unchecking := by
  have hfailed (e : DeployFailure) (previous : JsValue) :
      (swapFailed turns (getOwn (js "container_name") params) previous e).Asks Unchecking := by
    rw [swapFailed]
    split_ifs
    · trivial
    · exact asks_bind (asks_unraidAttemptRollback unchecking_containers) fun _ => trivial
  refine asks_bind (asks_call rfl) fun existing => ?_
  have hstop : (stopExisting existing (getOwn (js "container_name") params)).Asks Unchecking := by
    rw [stopExisting]
    split_ifs
    · exact asks_call rfl
    · trivial
  refine asks_bind hstop fun stopped => ?_
  refine asks_bind (asks_templateOf _) fun imageUri => ?_
  refine asks_bind (asks_templateOf _) fun digest => ?_
  refine asks_bind (asks_catching (asks_swapContainer unchecking_containers) fun e => hfailed e _)
    fun swapped => ?_
  exact asks_unraidRecord

theorem quiet_checkMounts (mounts : List JsValue) : (checkMounts mounts).Asks Quiet := by
  rw [checkMounts]
  split_ifs
  · trivial
  · apply asks_bind (asks_call ⟨rfl, rfl⟩)
    intro shares
    cases mounts.find? fun m => !shares.any (underShare m) <;> trivial

/-- A validated target is stateful as `deploy` sees it, which passes only its own fields. -/
theorem swarm_stateful (hvalid : validateParameters rawParams swarmSchema = .ok params) :
    isStatefulTarget [(js "role", getOwn (js "role") params),
      (js "named_volumes", (getOwn (js "named_volumes") params).orElse (.arr []))] =
        isStatefulTarget params := by
  have hmounts : getOwn (js "storage_mounts") params = .undefined :=
    getOwn_validateParameters hvalid (by decide)
  have hvolumes (v : JsValue) : getOwn (js "named_volumes")
      [(js "role", getOwn (js "role") params), (js "named_volumes", v)] = v := rfl
  have hnone (v : JsValue) : getOwn (js "storage_mounts")
      [(js "role", getOwn (js "role") params), (js "named_volumes", v)] = .undefined := rfl
  have hrole (v : JsValue) : getOwn (js "role")
      [(js "role", getOwn (js "role") params), (js "named_volumes", v)] =
        getOwn (js "role") params := rfl
  rw [isStatefulTarget, isStatefulTarget, hvolumes, hnone, hrole, hmounts]
  cases getOwn (js "named_volumes") params <;> rfl

theorem unraid_stateful (hvalid : validateParameters rawParams unraidSchema = .ok params) :
    isStatefulTarget [(js "role", getOwn (js "role") params),
      (js "storage_mounts", .arr (arrayParam params (js "storage_mounts")))] =
        isStatefulTarget params := by
  have hvolumes : getOwn (js "named_volumes") params = .undefined :=
    getOwn_validateParameters hvalid (by decide)
  have hmounts (v : JsValue) : getOwn (js "storage_mounts")
      [(js "role", getOwn (js "role") params), (js "storage_mounts", v)] = v := rfl
  have hnone (v : JsValue) : getOwn (js "named_volumes")
      [(js "role", getOwn (js "role") params), (js "storage_mounts", v)] = .undefined := rfl
  have hrole (v : JsValue) : getOwn (js "role")
      [(js "role", getOwn (js "role") params), (js "storage_mounts", v)] =
        getOwn (js "role") params := rfl
  rw [isStatefulTarget, isStatefulTarget, hmounts, hnone, hrole, hvolumes, arrayParam]
  cases getOwn (js "storage_mounts") params <;> rfl

/-- A deploy of a stateful target, when backups are required, changes nothing before the backup
of its platform has been verified, and nothing at all when that is refused. -/
theorem deploy_gated (b : StatefulBackend) (host : DeployHost) (config : StatefulDeployConfig)
    (turns : ℕ) (artifact : BuildArtifact) (env : JsString) (rawParams params : Fields)
    (hvalid : validateParameters rawParams b.schema = .ok params)
    (hstateful : isStatefulTarget params = true) (hrequire : config.requireBackup = true)
    (log : List (Exchange DeployAnswer)) (r : Except DeployStop DeploymentRecord)
    (h : Talks anyAnswer (b.deploy host config turns artifact env rawParams) log r) :
    Gated (b.backupPlatform params) log r := by
  cases b with
  | swarm =>
    have hsame := swarm_stateful hvalid
    rw [hstateful] at hsame
    rw [StatefulBackend.deploy, swarmDeploy, show validateParameters rawParams swarmSchema =
      .ok params from hvalid] at h
    change Talks _ (if _ then _ else _) log r at h
    split_ifs at h with hleaves
    · exact gated_quiet (m := Deploy.raise _) trivial h
    · rw [hsame] at h
      exact gated_requireBackup hrequire asks_swarmRelease h
  | unraid =>
    have hsame := unraid_stateful hvalid
    rw [hstateful] at hsame
    rw [StatefulBackend.deploy, unraidDeploy, show validateParameters rawParams unraidSchema =
      .ok params from hvalid] at h
    refine gated_bind (asks_call ⟨rfl, rfl⟩) (fun _ log r h => ?_) h
    refine gated_bind (quiet_checkMounts _) (fun _ log r h => ?_) h
    rw [hsame] at h
    exact gated_requireBackup hrequire asks_unraidRelease h

/-! ### A deploy whose backup is refused -/

def databaseParams : Fields :=
  [(js "manager_id", .str (js "m1")), (js "stack_name", .str (js "app")),
    (js "compose_file_path", .str (js "stack.yml")), (js "image_uri", .str (js "db:1")),
    (js "service_name", .str (js "db")), (js "role", .str (js "database"))]

/-- The parameters with the defaults of the schema. -/
def databaseValidated : Fields :=
  [(js "manager_id", .str (js "m1")), (js "stack_name", .str (js "app")),
    (js "compose_file_path", .str (js "stack.yml")), (js "image_uri", .str (js "db:1")),
    (js "service_name", .str (js "db")), (js "health_timeout_seconds", .num (.ofNat 180)),
    (js "role", .str (js "database")), (js "named_volumes", .arr [])]

theorem databaseParams_valid : validateParameters databaseParams swarmSchema = .ok databaseValidated :=
  rfl

def deployHost : DeployHost where
  toHmacHost := dateHost
  dataDir := js "/d"
  sha256 := id
  isoString _ := .ok (js "2026-01-01T00:00:00.000Z")

def sourceArtifact : BuildArtifact := ⟨js "commit", js "0a1b", [], []⟩

def staleBackup : DeployFailure := .error (js "backup is stale")

def refusedCheck : Exchange DeployAnswer :=
  ⟨.verifyBackup ⟨js "docker", js "app_db", none⟩, .error staleBackup⟩

theorem refusedCheck_run : Talks anyAnswer (swarmDeploy deployHost ⟨true, none⟩ 0 sourceArtifact
    (js "prod") databaseParams) [refusedCheck] (.error (.thrown staleBackup)) := by
  rw [swarmDeploy, databaseParams_valid]
  exact .ask trivial (.fail _)

/-- The theorem on that run: nothing has been changed. -/
theorem deploy_gated_refused : Gated (js "docker") [refusedCheck] (.error (.thrown staleBackup)) :=
  deploy_gated .swarm deployHost ⟨true, none⟩ 0 sourceArtifact (js "prod") databaseParams
    databaseValidated databaseParams_valid rfl rfl _ _ refusedCheck_run

end Homelab
