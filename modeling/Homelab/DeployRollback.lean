import Homelab.DeployGate
import Homelab.DeployRecords

/-! Health checks and rollbacks of the four backends: what they ask of a record that may have
been altered. -/
namespace Homelab
open Js Dialogue

/-! ### Operations on a record -/

def DeployBackend.healthCheck (host : DeployHost) (record : DeploymentRecord) :
    DeployBackend → Deploy HealthStatus
  | .dockerSwarm => swarmHealthCheck host record
  | .proxmox => proxmoxHealthCheck host record
  | .unraid => unraidHealthCheck host record
  | .k3s => k3sHealthCheck record

def DeployBackend.rollback (turns : ℕ) (record : DeploymentRecord) :
    DeployBackend → Deploy RollbackResult
  | .dockerSwarm => swarmRollback turns record
  | .proxmox => proxmoxRollback turns record
  | .unraid => unraidRollback turns record
  | .k3s => k3sRollback record

/-- What the rollback of a backend looks for first in the details. -/
def DeployBackend.rolledBackTo : DeployBackend → JsString
  | .dockerSwarm => js "previous_service_spec"
  | .proxmox => js "previous_vmid"
  | .unraid => js "previous_container_config"
  | .k3s => js "cluster_id"

/-- The details say that there is nothing to roll back to. -/
def DeployBackend.NothingBefore (details : Fields) : DeployBackend → Prop
  | .k3s => isUndefined (getOwn (js "cluster_id") details) = true
  | b => isNullish (getOwn b.rolledBackTo details) = true

/-! ### What is derived from a record -/

/-- The command or the call is made of something that the details of the record say. -/
def FromDetails (record : DeploymentRecord) : DeployAsk → Prop
  | .exec words => ∃ k, ∃ word ∈ words, (getOwn k record.payload.details).coerce <:+: word
  | .getConnection id => ∃ k, id = getOwn k record.payload.details
  | .getClient hostId => ∃ k, hostId = getOwn k record.payload.details
  | .inspectContainer name => ∃ k, name = getOwn k record.payload.details
  | .stopContainer name => ∃ k, name = getOwn k record.payload.details
  | .removeContainer name => ∃ k, name = getOwn k record.payload.details
  | .addContainer payload => ∃ k, payload = getOwn k record.payload.details
  | .startContainer name => ∃ k, name = getOwn k record.payload.details
  | .resolveContextName clusterId => ∃ k, clusterId = getOwn k record.payload.details
  | .acquire clusterId _ _ => ∃ k, clusterId = getOwn k record.payload.details
  | .k8sHealthCheck handed => handed = record
  | .k8sRollback handed => handed = record
  | _ => False

/-- Nothing is derived from the record in any run, unless the record verifies. -/
def ActsOnAuthentic {α : Type} (host : DeployHost) (record : DeploymentRecord) (m : Deploy α) : Prop :=
  ∀ log r, Talks anyAnswer m log r → (∃ x ∈ log, FromDetails record x.ask) →
    verifyDeploymentRecord host record = true

variable {α : Type} {host : DeployHost} {record : DeploymentRecord} {turns : ℕ}

theorem answer_exists (q : DeployAsk) : ∃ a, anyAnswer q a := by
  have hrejected : DeployFailure := .error (js "rejected")
  cases q with
  | now => exact ⟨(0 : ℕ), trivial⟩
  | sleep ms => exact ⟨(), trivial⟩
  | generateId => exact ⟨js "id", trivial⟩
  | _ => exact ⟨.error hrejected, trivial⟩

theorem actsOnAuthentic_of_verify {m : Deploy α} (h : verifyDeploymentRecord host record = true) :
    ActsOnAuthentic host record m := fun _ _ _ _ => h

/-- What asks nothing acts on nothing. -/
theorem actsOnAuthentic_of_silent {m : Deploy α} (h : m.Asks fun _ => False) :
    ActsOnAuthentic host record m := by
  rintro log r hrun ⟨x, hx, _⟩
  exact (h.of_mem hrun x hx).1.elim

/-- What asks for something of the details at once needs a record that verifies. -/
theorem verify_of_first {q : DeployAsk} {next : DeployAnswer q → Deploy α}
    (h : ActsOnAuthentic host record (.ask q next)) (hq : FromDetails record q) :
    verifyDeploymentRecord host record = true := by
  obtain ⟨a, ha⟩ := answer_exists q
  obtain ⟨log, r, hrun⟩ := talks_first answer_exists ha
  exact h _ r hrun ⟨_, List.mem_cons_self .., hq⟩

/-- No health check looks at the signature of the record. -/
theorem healthCheck_authentic_iff (b : DeployBackend) :
    ActsOnAuthentic host record (b.healthCheck host record) ↔
      verifyDeploymentRecord host record = true := by
  refine ⟨fun h => ?_, actsOnAuthentic_of_verify⟩
  cases b with
  | dockerSwarm => exact verify_of_first (q := .getConnection _) h ⟨js "manager_id", rfl⟩
  | proxmox => exact verify_of_first (q := .getConnection _) h ⟨js "node_id", rfl⟩
  | unraid => exact verify_of_first (q := .getClient _) h ⟨js "host_id", rfl⟩
  | k3s =>
    rw [DeployBackend.healthCheck, k3sHealthCheck, acquireForCheck] at h
    split_ifs at h with hcluster
    · exact verify_of_first (q := .k8sHealthCheck record) h rfl
    · exact verify_of_first (q := .resolveContextName _) h ⟨js "cluster_id", rfl⟩

/-- A rollback asks nothing, or asks at once for something of the details. -/
theorem rollback_cases (b : DeployBackend) :
    (b.NothingBefore record.payload.details ∧ (b.rollback turns record).Asks fun _ => False) ∨
    (¬ b.NothingBefore record.payload.details ∧
      ∃ q next, b.rollback turns record = .ask q next ∧ FromDetails record q) := by
  cases b with
  | dockerSwarm =>
    rw [DeployBackend.rollback, swarmRollback]
    split_ifs with hnothing
    · exact Or.inl ⟨hnothing, trivial⟩
    · exact Or.inr ⟨hnothing, .getConnection _, _, rfl, js "manager_id", rfl⟩
  | proxmox =>
    rw [DeployBackend.rollback, proxmoxRollback]
    split_ifs with hnothing
    · exact Or.inl ⟨hnothing, trivial⟩
    · exact Or.inr ⟨hnothing, .getConnection _, _, rfl, js "node_id", rfl⟩
  | unraid =>
    rw [DeployBackend.rollback, unraidRollback]
    split_ifs with hnothing
    · exact Or.inl ⟨hnothing, trivial⟩
    · exact Or.inr ⟨hnothing, .getClient _, _, rfl, js "host_id", rfl⟩
  | k3s =>
    rw [DeployBackend.rollback, k3sRollback]
    split_ifs with hnothing
    · exact Or.inl ⟨hnothing, trivial⟩
    · exact Or.inr ⟨hnothing, .resolveContextName _, _, rfl, js "cluster_id", rfl⟩

/-- No rollback looks at the signature, either; it only may find that there is nothing to do. -/
theorem rollback_authentic_iff (b : DeployBackend) :
    ActsOnAuthentic host record (b.rollback turns record) ↔
      verifyDeploymentRecord host record = true ∨ b.NothingBefore record.payload.details := by
  have hcases := @rollback_cases record turns b
  rcases hcases with ⟨hnothing, hsilent⟩ | ⟨hsome, q, next, hfirst, hq⟩
  · exact ⟨fun _ => Or.inr hnothing, fun _ => actsOnAuthentic_of_silent hsilent⟩
  · constructor
    · intro h
      rw [hfirst] at h
      exact Or.inl (verify_of_first h hq)
    · rintro (hverify | hnothing)
      · exact actsOnAuthentic_of_verify hverify
      · exact absurd hnothing hsome

/-- Health checks and rollbacks act on whatever the details say: of a record that does not
verify they derive nothing only where there is nothing to roll back to. -/
theorem acts_on_authentic_iff (b : DeployBackend) (host : DeployHost) (record : DeploymentRecord)
    (turns : ℕ) :
    (ActsOnAuthentic host record (b.healthCheck host record) ↔
      verifyDeploymentRecord host record = true) ∧
    (ActsOnAuthentic host record (b.rollback turns record) ↔
      verifyDeploymentRecord host record = true ∨ b.NothingBefore record.payload.details) :=
  ⟨healthCheck_authentic_iff b, rollback_authentic_iff b⟩

/-! ### A record whose vmid has been altered -/

/-- A record of a container on `pve1` that now says 999. -/
def alteredRecord : DeploymentRecord where
  payload := {
    id := js "d1"
    backendName := js "proxmox"
    target := js "homelab-proxmox"
    envName := js "prod"
    artifactLocation := js "proxmox://pve1/lxc/200"
    stateful := none
    details := [(js "node_id", .str (js "pve1")), (js "vmid", .num (.ofNat 999)),
      (js "workload_kind", .str (js "lxc")), (js "previous_vmid", .num (.ofNat 100))]
    deployedAt := js "2026-01-01T00:00:00.000Z" }
  hmac := js "5cd2"

theorem alteredRecord_refused : verifyDeploymentRecord deployHost alteredRecord ≠ true := by
  intro h
  obtain ⟨key, text, _, _, hdigest⟩ := verifyDeploymentRecord_iff.mp h
  simp only [deployHost, dateHost, alteredRecord] at hdigest
  -- neither digest is the one of the record
  split_ifs at hdigest
  · revert hdigest
    decide
  · revert hdigest
    decide

def lostConnection : DeployFailure := .error (js "connection lost")

def alteredStop : Exchange DeployAnswer :=
  ⟨.exec [js "pct", js "stop", js "999"], .error lostConnection⟩

theorem altered_run : Talks anyAnswer (proxmoxRollback 0 alteredRecord)
    [⟨.getConnection (.str (js "pve1")), .ok ()⟩, alteredStop] (.error (.thrown lostConnection)) :=
  .ask trivial (.ask trivial (.fail _))

/-- A rollback stops the instance that an altered record names. -/
theorem acts_on_authentic_fails : ¬ ∀ (b : DeployBackend) (host : DeployHost)
    (record : DeploymentRecord) (turns : ℕ),
    ActsOnAuthentic host record (b.healthCheck host record) ∧
      ActsOnAuthentic host record (b.rollback turns record) := by
  intro h
  have hauthentic := (h .proxmox deployHost alteredRecord 0).2
  have hword : FromDetails alteredRecord alteredStop.ask := by
    refine ⟨js "vmid", js "999", by decide, ?_⟩
    exact List.infix_rfl
  exact alteredRecord_refused (hauthentic _ _ altered_run ⟨alteredStop, by simp, hword⟩)

end Homelab
