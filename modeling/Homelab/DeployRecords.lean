import Homelab.JsonShape
import Homelab.K3sBackend
import Homelab.ProxmoxBackend
import Homelab.SwarmBackend
import Homelab.UnraidBackend

/-! The signed records of the four backends: which of them verify, as they are returned and
when they are read back from their JSON. -/
namespace Homelab
open Js Dialogue LiveValue

/-! ### Signing and verifying a record -/

/-- The record as an envelope. -/
def DeploymentRecord.signed (record : DeploymentRecord) : Signed :=
  ⟨.ofJs (.obj record.payload.fields), record.hmac⟩

/-- The record verifies, and so does `JSON.parse(JSON.stringify(record))`. -/
def VerifiesTwice (host : DeployHost) (record : DeploymentRecord) : Prop :=
  verifyDeploymentRecord host record = true ∧ RoundTrips host.toHmacHost record.signed

variable {host : DeployHost} {record : DeploymentRecord} {payload : DeploymentRecordPayload}

theorem verifyDeploymentRecord_iff : verifyDeploymentRecord host record = true ↔
    ∃ key text, host.getSecret = .ok key ∧ encode (.obj record.payload.fields) = .ok text ∧
      bufferFromHex record.hmac = host.hmacSha256 key text := by
  rw [verifyDeploymentRecord, verifyPayload_iff]
  constructor
  · rintro ⟨_, hmac, key, text, hhmac, hkey, htext, hdigest⟩
    obtain rfl : record.hmac = hmac := JsValue.str.inj hhmac
    exact ⟨key, text, hkey, htext, hdigest⟩
  · rintro ⟨key, text, hkey, htext, hdigest⟩
    exact ⟨rfl, record.hmac, key, text, rfl, hkey, htext, hdigest⟩

theorem signDeploymentRecord_iff : signDeploymentRecord host payload = .ok record ↔
    ∃ text key, encode (.obj payload.fields) = .ok text ∧ host.getSecret = .ok key ∧
      record = ⟨payload, hexText (host.hmacSha256 key text)⟩ := by
  rw [signDeploymentRecord, map_ok_iff]
  constructor
  · rintro ⟨signed, hsigned, rfl⟩
    obtain ⟨text, key, htext, hkey, rfl⟩ := signPayload_iff.mp hsigned
    rw [encode_ofJs] at htext
    exact ⟨text, key, htext, hkey, rfl⟩
  · rintro ⟨text, key, htext, hkey, rfl⟩
    rw [← encode_ofJs] at htext
    exact ⟨_, signPayload_iff.mpr ⟨text, key, htext, hkey, rfl⟩, rfl⟩

/-- What verifies in memory verifies when it is read back. -/
theorem roundTrips_of_verify (hordered : WellOrdered (.obj record.payload.fields))
    (h : verifyDeploymentRecord host record = true) :
    RoundTrips host.toHmacHost record.signed := by
  obtain ⟨key, text, hkey, htext, hdigest⟩ := verifyDeploymentRecord_iff.mp h
  rw [← encode_ofJs] at htext
  obtain ⟨j, hwritten, hencode⟩ := Faithful.written _ (faithful_ofJs _) htext
  refine ⟨_, reread_eq hordered hwritten, verifyPayload_iff.mpr ⟨rfl, ?_⟩⟩
  refine ⟨_, key, text, property_hmac _ _, hkey, ?_, hdigest⟩
  rw [property_payload, canonicalJson, encode_posZero]
  exact hencode

theorem verify_of_sign (h : signDeploymentRecord host payload = .ok record) :
    verifyDeploymentRecord host record = true := by
  obtain ⟨text, key, htext, hkey, rfl⟩ := signDeploymentRecord_iff.mp h
  exact verifyDeploymentRecord_iff.mpr ⟨key, text, hkey, htext, bufferFromHex_hexText _⟩

/-! ### Records as JavaScript values -/

theorem payload_keys (p : DeploymentRecordPayload) : OwnOrder (p.fields.map Prod.fst) := by
  rw [DeploymentRecordPayload.fields]
  cases p.stateful with
  | none =>
    change OwnOrder [js "id", js "backendName", js "target", js "envName", js "artifactLocation",
      js "details", js "deployedAt"]
    decide
  | some b =>
    change OwnOrder [js "id", js "backendName", js "target", js "envName", js "artifactLocation",
      js "stateful", js "details", js "deployedAt"]
    decide

theorem payload_wellOrdered (p : DeploymentRecordPayload) (h : WellOrdered (.obj p.details)) :
    WellOrdered (.obj p.fields) := by
  refine wellOrdered_obj.mpr ⟨payload_keys p, ?_⟩
  rw [DeploymentRecordPayload.fields, List.forall_mem_append, List.forall_mem_append]
  refine ⟨⟨?_, ?_⟩, ?_⟩
  · simp only [List.forall_mem_cons, List.not_mem_nil, false_imp_iff, implies_true, and_true]
    exact ⟨rfl, rfl, rfl, rfl, rfl⟩
  · cases p.stateful with
    | none => exact fun f hf => absurd hf List.not_mem_nil
    | some b => exact fun f hf => (List.mem_singleton.mp hf) ▸ rfl
  · simp only [List.forall_mem_cons, List.not_mem_nil, false_imp_iff, implies_true, and_true]
    exact ⟨h, rfl⟩

theorem wellOrdered_json {v : JsValue} (h : v.isJson = true) : WellOrdered v := wellFormed_ofJs v h

theorem wellOrdered_previousSpec (inspected : CommandResult) : WellOrdered (previousSpec inspected) := by
  rw [previousSpec]
  split_ifs
  · cases hparse : jsonParse inspected.stdout with
    | none => rfl
    | some v => exact wellOrdered_json (jsonParse_isJson hparse)
  · rfl

/-! ### The records of three backends -/

/-- What a run returns is signed, and the details are those of a JavaScript object. -/
def SignedRecord (host : DeployHost) (record : DeploymentRecord) : Prop :=
  ∃ payload, signDeploymentRecord host payload = .ok record ∧ WellOrdered (.obj payload.details)

theorem SignedRecord.verifies (h : SignedRecord host record) : VerifiesTwice host record := by
  obtain ⟨payload, hsign, hdetails⟩ := h
  have hverify := verify_of_sign hsign
  obtain ⟨text, key, _, _, rfl⟩ := signDeploymentRecord_iff.mp hsign
  exact ⟨hverify, roundTrips_of_verify (payload_wellOrdered payload hdetails) hverify⟩

variable {May : ∀ q, DeployAnswer q → Prop} {artifact : BuildArtifact} {env : JsString}
  {params rawParams : Fields}

theorem returns_signed (hdetails : WellOrdered (.obj payload.details)) :
    Returns May (SignedRecord host) (Deploy.orThrow (signDeploymentRecord host payload)) := by
  cases hsign : signDeploymentRecord host payload with
  | error message => exact returns_fail _
  | ok record => exact returns_done ⟨payload, hsign, hdetails⟩

theorem wellOrdered_swarmDetails {previous volumes platform : JsValue} {deployedAt : JsString}
    {stateful : Bool} (hparams : ∀ k, WellOrdered (getOwn k params)) (hprevious : WellOrdered previous)
    (hvolumes : WellOrdered volumes) (hplatform : WellOrdered platform) :
    WellOrdered (.obj (swarmDetails params previous deployedAt stateful volumes platform)) := by
  have hdate : WellOrdered (.str deployedAt) := rfl
  refine wellOrdered_obj.mpr ?_
  cases stateful with
  | true =>
    refine ⟨?_, ?_⟩
    · change OwnOrder [js "manager_id", js "stack_name", js "service_name", js "image_uri",
        js "previous_service_spec", js "deployed_at", js "named_volumes", js "backup_platform"]
      decide
    · simp only [swarmDetails, ↓reduceIte, List.cons_append, List.nil_append, List.forall_mem_cons,
        List.not_mem_nil, false_imp_iff, implies_true, hparams, hprevious, hvolumes, hplatform,
        hdate, and_self]
  | false =>
    refine ⟨?_, ?_⟩
    · change OwnOrder [js "manager_id", js "stack_name", js "service_name", js "image_uri",
        js "previous_service_spec", js "deployed_at"]
      decide
    · simp only [swarmDetails, Bool.false_eq_true, ↓reduceIte, List.append_nil, List.forall_mem_cons,
        List.not_mem_nil, false_imp_iff, implies_true, hparams, hprevious, hdate, and_self]

theorem wellOrdered_unraidDetails {metadata : Fields} {previous platform : JsValue}
    {startedAt : JsString} {stateful : Bool} (hparams : ∀ k, WellOrdered (getOwn k params))
    (hmetadata : ∀ k, WellOrdered (getOwn k metadata)) (hprevious : WellOrdered previous)
    (hplatform : WellOrdered platform) :
    WellOrdered (.obj (unraidDetails params metadata previous startedAt stateful platform)) := by
  have hdate : WellOrdered (.str startedAt) := rfl
  refine wellOrdered_obj.mpr ?_
  cases stateful with
  | true =>
    refine ⟨?_, ?_⟩
    · change OwnOrder [js "host_id", js "container_name", js "image_uri", js "digest",
        js "previous_container_config", js "started_at", js "backup_platform"]
      decide
    · simp only [unraidDetails, ↓reduceIte, List.cons_append, List.nil_append, List.forall_mem_cons,
        List.not_mem_nil, false_imp_iff, implies_true, hparams, hmetadata, hprevious, hplatform,
        hdate, and_self]
  | false =>
    refine ⟨?_, ?_⟩
    · change OwnOrder [js "host_id", js "container_name", js "image_uri", js "digest",
        js "previous_container_config", js "started_at"]
      decide
    · simp only [unraidDetails, Bool.false_eq_true, ↓reduceIte, List.append_nil,
        List.forall_mem_cons, List.not_mem_nil, false_imp_iff, implies_true, hparams, hmetadata,
        hprevious, hdate, and_self]

theorem wellOrdered_proxmoxDetails {vmid : JsNumber} {ip previous : JsValue} {startedAt : JsString}
    (hparams : ∀ k, WellOrdered (getOwn k params)) (hip : WellOrdered ip)
    (hprevious : WellOrdered previous) :
    WellOrdered (.obj (proxmoxDetails params vmid ip previous startedAt)) := by
  have hdate : WellOrdered (.str startedAt) := rfl
  have hvmid : WellOrdered (.num vmid) := rfl
  refine wellOrdered_obj.mpr ⟨?_, ?_⟩
  · change OwnOrder [js "node_id", js "vmid", js "workload_kind", js "ip", js "hostname",
      js "image_uri", js "previous_vmid", js "started_at"]
    decide
  · simp only [proxmoxDetails, List.forall_mem_cons, List.not_mem_nil, false_imp_iff, implies_true,
      hparams, hip, hprevious, hdate, hvmid, and_self]

/-- Parameters that have been validated are well ordered as the given ones and the defaults
are. -/
theorem wellOrdered_params {schema : List (JsString × ParamSchema)}
    (hschema : ∀ f ∈ schema, WellOrdered f.2.fallback) (hraw : WellOrdered (.obj rawParams))
    (h : validateParameters rawParams schema = .ok params) (k : JsString) :
    WellOrdered (getOwn k params) :=
  validateParameters_forall (P := WellOrdered) h rfl
    (wellOrdered_getOwn (wellOrdered_obj.mp hraw).2) hschema k

theorem returns_check {α β : Type} {P : β → Prop} {r : Except DeployError α} {f : α → Deploy β}
    (h : ∀ a, r = .ok a → Returns May P (f a)) : Returns May P ((Deploy.check r).bind f) := by
  cases r with
  | error e => exact returns_fail _
  | ok a => exact h a rfl

theorem returns_swarmRecord {previous volumes platform : JsValue} {stateful : Bool}
    (hparams : ∀ k, WellOrdered (getOwn k params)) (hprevious : WellOrdered previous)
    (hvolumes : WellOrdered volumes) (hplatform : WellOrdered platform) :
    Returns May (SignedRecord host)
      (swarmRecord host artifact env params previous stateful volumes platform) := by
  refine returns_bind fun deployedAt => returns_bind fun id => ?_
  exact returns_signed (wellOrdered_swarmDetails hparams hprevious hvolumes hplatform)

theorem returns_swarmDeploy {config : StatefulDeployConfig} {turns : ℕ}
    (hraw : WellOrdered (.obj rawParams)) :
    Returns May (SignedRecord host) (swarmDeploy host config turns artifact env rawParams) := by
  refine returns_check fun params hvalid => ?_
  have hparams := wellOrdered_params (by decide) hraw hvalid
  dsimp only
  split_ifs with hleaves
  · exact returns_fail _
  · refine returns_bind fun gate => returns_bind fun connected => ?_
    refine returns_bind fun inspected => returns_bind fun deployed => ?_
    split_ifs with hexit
    · -- a failed deploy only throws
      rw [swarmDeployFailed]
      split_ifs with hprevious
      · exact returns_fail _
      · exact returns_bind fun rollback => returns_fail _
    · apply returns_swarmRecord hparams (wellOrdered_previousSpec _)
      · exact wellOrdered_orElse (hparams _) rfl
      · exact wellOrdered_orElse (hparams _) rfl

theorem returns_unraidDeploy {config : StatefulDeployConfig} {turns : ℕ}
    (hraw : WellOrdered (.obj rawParams)) (hartifact : WellOrdered (.obj artifact.metadata)) :
    Returns May (SignedRecord host) (unraidDeploy host config turns artifact env rawParams) := by
  have hmetadata := wellOrdered_getOwn (wellOrdered_obj.mp hartifact).2
  refine returns_check fun params hvalid => ?_
  have hparams := wellOrdered_params (by decide) hraw hvalid
  refine returns_bind fun client => returns_bind fun mounts => returns_bind fun gate => ?_
  refine returns_bind fun existing => returns_bind fun stopped => ?_
  refine returns_bind fun imageUri => returns_bind fun digest => returns_bind fun swapped => ?_
  refine returns_bind fun startedAt => returns_bind fun id => returns_bind fun path => ?_
  refine returns_bind fun persisted => returns_signed ?_
  apply wellOrdered_unraidDetails hparams hmetadata
  · exact wellOrdered_orElse (hmetadata _) rfl
  · exact wellOrdered_orElse (hparams _) rfl

theorem wellOrdered_address (ip : Option JsString) : WellOrdered (ip.elim .null .str) := by
  cases ip <;> rfl

theorem returns_address {kind : JsValue} {vmid : JsString} :
    Returns May WellOrdered (resolveAssignedIp kind vmid) := by
  rw [resolveAssignedIp]
  split_ifs with hkind
  · refine returns_bind fun result => ?_
    split_ifs with hexit
    · exact returns_done rfl
    · exact returns_bind fun ip => returns_done (wellOrdered_address ip)
  · refine returns_bind fun result => ?_
    split_ifs with hexit
    · exact returns_done rfl
    · exact returns_done (wellOrdered_address _)

theorem returns_proxmoxDeploy {turns : ℕ} (hraw : WellOrdered (.obj rawParams))
    (hartifact : WellOrdered (.obj artifact.metadata)) :
    Returns May (SignedRecord host) (proxmoxDeploy host turns artifact env rawParams) := by
  have hmetadata := wellOrdered_getOwn (wellOrdered_obj.mp hartifact).2
  refine returns_check fun params hvalid => returns_check fun vmid hvmid => ?_
  have hparams := wellOrdered_params (by decide) hraw hvalid
  refine returns_bind fun connected => returns_bind fun started => ?_
  split_ifs with hexit
  · exact returns_fail _
  · refine returns_bind fun polled => returns_bind_of returns_address fun ip hip => ?_
    refine returns_bind fun startedAt => returns_bind fun id => returns_bind fun path => ?_
    refine returns_bind fun persisted => returns_signed ?_
    exact wellOrdered_proxmoxDetails hparams hip (wellOrdered_orElse (hmetadata _) rfl)

/-! ### The record of k3s -/

/-- Collaborators may answer anything, but the record of the wrapped backend verifies. -/
def mayDeploy (host : DeployHost) : ∀ q, DeployAnswer q → Prop
  | .k8sDeploy _ _ _, .ok inner =>
    verifyDeploymentRecord host inner = true ∧ WellOrdered (.obj inner.payload.details)
  | _, _ => True

/-- The wrapped backend has returned this record. -/
def Returned (inner : DeploymentRecord) : Exchange DeployAnswer → Prop
  | ⟨.k8sDeploy _ _ _, .ok record⟩ => record = inner
  | _ => False

/-- The record already says what `deploy` of `k3s.ts` writes into it. -/
def AlreadyDecorated (rawParams : Fields) (inner : DeploymentRecord) : Prop :=
  inner.payload.backendName = js "k3s" ∧
    getOwn (js "cluster_id") inner.payload.details = getOwn (js "cluster_id") rawParams

/-- The digests of the texts of two payloads do not collide. -/
def DigestsDiffer (host : DeployHost) (p q : DeploymentRecordPayload) : Prop :=
  ∀ key text text', encode (.obj p.fields) = .ok text → encode (.obj q.fields) = .ok text' →
    host.hmacSha256 key text = host.hmacSha256 key text' → text = text'

variable {inner : DeploymentRecord} {log : List (Exchange DeployAnswer)}

theorem k3sDeploy_run (h : Talks (mayDeploy host) (k3sDeploy artifact env rawParams) log (.ok record)) :
    ∃ inner s, (∃ x ∈ log, Returned inner x) ∧ (∀ inner', (∃ x ∈ log, Returned inner' x) → inner' = inner) ∧
      verifyDeploymentRecord host inner = true ∧ WellOrdered (.obj inner.payload.details) ∧
      getOwn (js "cluster_id") rawParams = .str s ∧ record = decorate (.str s) inner := by
  rw [k3sDeploy] at h
  cases hvalid : validateParameters rawParams k3sSchema with
  | error e =>
    rw [hvalid] at h
    obtain ⟨_, hcontra⟩ := talks_fail.mp h
    cases hcontra
  | ok params =>
    have hkept : checkOne (js "cluster_id") (getOwn (js "cluster_id") rawParams)
        (requiredText .identifier) = .ok (getOwn (js "cluster_id") params) :=
      getOwn_validated hvalid (by decide) (List.mem_cons_self ..)
    obtain ⟨s, hraw, hparam, _⟩ := checkOne_requiredText hkept
    rw [hvalid] at h
    simp only [bind_eq, Deploy.check, done_bind, Deploy.resolveContextName, Deploy.acquire,
      Deploy.k8sDeploy, ask_bind] at h
    -- the context, then the credential, then the wrapped backend
    obtain ⟨contextAnswer, _, _, hcontext, rfl⟩ := talks_ask.mp h
    obtain ⟨contextName, rfl, hcontext⟩ := talks_settle hcontext
    obtain ⟨credentialAnswer, _, _, hcredential, rfl⟩ := talks_ask.mp hcontext
    obtain ⟨kubeconfig, rfl, hcredential⟩ := talks_settle hcredential
    obtain ⟨innerAnswer, _, hmay, hwrapped, rfl⟩ := talks_ask.mp hcredential
    obtain ⟨inner, rfl, hwrapped⟩ := talks_settle hwrapped
    obtain ⟨rfl, hrecord⟩ := talks_done.mp hwrapped
    refine ⟨inner, s, ?_, ?_, hmay.1, hmay.2, hraw, ?_⟩
    · exact ⟨_, List.mem_cons_of_mem _ (List.mem_cons_of_mem _ (List.mem_cons_self ..)), rfl⟩
    · rintro inner' ⟨x, hx, hreturned'⟩
      simp only [List.mem_cons, List.not_mem_nil, or_false] at hx
      rcases hx with rfl | rfl | rfl
      · exact hreturned'.elim
      · exact hreturned'.elim
      · exact Eq.symm hreturned'
    · rw [Except.ok.inj hrecord, hparam]

theorem decorate_same {c : JsValue} (hdetails : WellOrdered (.obj inner.payload.details))
    (hname : inner.payload.backendName = js "k3s")
    (hcluster : getOwn (js "cluster_id") inner.payload.details = c) (hc : c ≠ .undefined) :
    decorate c inner = inner := by
  have hmem : js "cluster_id" ∈ inner.payload.details.map Prod.fst := by
    by_contra hnot
    rw [getOwn_not_mem hnot] at hcluster
    exact hc hcluster.symm
  have hset := setOwn_getOwn (wellOrdered_obj.mp hdetails).1 hmem
  rw [hcluster] at hset
  rw [decorate, hset, ← hname]

theorem getOwn_fields (p : DeploymentRecordPayload) :
    getOwn (js "backendName") p.fields = .str p.backendName ∧
      getOwn (js "details") p.fields = .obj p.details := by
  rw [DeploymentRecordPayload.fields]
  cases p.stateful <;> exact ⟨rfl, rfl⟩

/-- The decorated record verifies only if nothing was written into it. -/
theorem decorate_verifies_iff {s : JsString} (hinner : verifyDeploymentRecord host inner = true)
    (hdetails : WellOrdered (.obj inner.payload.details))
    (hcollision : DigestsDiffer host inner.payload (decorate (.str s) inner).payload) :
    VerifiesTwice host (decorate (.str s) inner) ↔ inner.payload.backendName = js "k3s" ∧
      getOwn (js "cluster_id") inner.payload.details = .str s := by
  constructor
  · rintro ⟨hverify, _⟩
    obtain ⟨key, text, hkey, htext, hdigest⟩ := verifyDeploymentRecord_iff.mp hinner
    obtain ⟨key', text', hkey', htext', hdigest'⟩ := verifyDeploymentRecord_iff.mp hverify
    rw [hkey] at hkey'
    obtain rfl := Except.ok.inj hkey'
    -- the HMAC is that of the inner record
    change bufferFromHex inner.hmac = _ at hdigest'
    rw [hdigest] at hdigest'
    have hsame := hcollision key text text' htext htext' hdigest'
    have hcanon := encode_inj _ htext (hsame ▸ htext')
    have hnodup (p : DeploymentRecordPayload) : (p.fields.map Prod.fst).Nodup :=
      (payload_keys p).imp And.left
    have hproperty := canon_getOwn (hnodup _) (hnodup _) hcanon
    have hname := hproperty (js "backendName")
    have hobject := hproperty (js "details")
    rw [(getOwn_fields _).1, (getOwn_fields _).1] at hname
    rw [(getOwn_fields _).2, (getOwn_fields _).2] at hobject
    have hkeys := (wellOrdered_obj.mp hdetails).1
    have hcluster := canon_getOwn (hkeys.imp And.left)
      ((ownOrder_setOwn (js "cluster_id") (.str s) hkeys).imp And.left) hobject (js "cluster_id")
    rw [getOwn_setOwn] at hcluster
    exact ⟨JsValue.str.inj hname, canon_str hcluster⟩
  · rintro ⟨hname, hcluster⟩
    rw [decorate_same hdetails hname hcluster (by simp)]
    exact ⟨hinner, roundTrips_of_verify (payload_wellOrdered _ hdetails) hinner⟩

/-! ### All backends -/

inductive DeployBackend
  | dockerSwarm | proxmox | unraid | k3s
deriving DecidableEq

def DeployBackend.deploy (host : DeployHost) (config : StatefulDeployConfig) (turns : ℕ)
    (artifact : BuildArtifact) (env : JsString) (rawParams : Fields) :
    DeployBackend → Deploy DeploymentRecord
  | .dockerSwarm => swarmDeploy host config turns artifact env rawParams
  | .proxmox => proxmoxDeploy host turns artifact env rawParams
  | .unraid => unraidDeploy host config turns artifact env rawParams
  | .k3s => k3sDeploy artifact env rawParams

/-- A record that a deploy returns verifies, in memory and when it is read back from its JSON,
unless it is one of k3s and the wrapped backend has not itself written what k3s adds. -/
theorem record_verifies_iff (b : DeployBackend) (host : DeployHost) (config : StatefulDeployConfig)
    (turns : ℕ) (artifact : BuildArtifact) (env : JsString) (rawParams : Fields)
    (hartifact : WellOrdered (.obj artifact.metadata)) (hparams : WellOrdered (.obj rawParams))
    (log : List (Exchange DeployAnswer)) (record : DeploymentRecord)
    (h : Talks (mayDeploy host) (b.deploy host config turns artifact env rawParams) log (.ok record))
    (hcollision : ∀ inner, (∃ x ∈ log, Returned inner x) →
      DigestsDiffer host inner.payload record.payload) :
    VerifiesTwice host record ↔ (b = .k3s →
      ∀ inner, (∃ x ∈ log, Returned inner x) → AlreadyDecorated rawParams inner) := by
  cases b with
  | k3s =>
    obtain ⟨inner, s, hreturned, hunique, hinner, hdetails, hcluster, rfl⟩ := k3sDeploy_run h
    rw [decorate_verifies_iff hinner hdetails (hcollision inner hreturned)]
    constructor
    · intro hsame _ inner' hinner'
      rw [hunique inner' hinner', AlreadyDecorated, hcluster]
      exact hsame
    · intro hsame
      have hdecorated := hsame rfl inner hreturned
      rw [AlreadyDecorated, hcluster] at hdecorated
      exact hdecorated
  | dockerSwarm =>
    have hsigned := returns_swarmDeploy hparams log record h
    exact ⟨fun _ hb => (by cases hb), fun _ => hsigned.verifies⟩
  | proxmox =>
    have hsigned := returns_proxmoxDeploy hparams hartifact log record h
    exact ⟨fun _ hb => (by cases hb), fun _ => hsigned.verifies⟩
  | unraid =>
    have hsigned := returns_unraidDeploy hparams hartifact log record h
    exact ⟨fun _ hb => (by cases hb), fun _ => hsigned.verifies⟩

/-! ### A record of k3s that does not verify -/

/-- What the wrapped backend signs: its own name, and no cluster. -/
def wrappedPayload : DeploymentRecordPayload where
  id := js "k8s-1"
  backendName := js "k8s"
  target := js "k8s"
  envName := js "prod"
  artifactLocation := js "k8s://abc"
  stateful := none
  details := [(js "ns", .str (js "default"))]
  deployedAt := js "2024-01-01T00:00:00.000Z"

def wrappedText : JsString :=
  js "\x7b\"artifactLocation\":\"k8s://abc\",\"backendName\":\"k8s\",\"deployedAt\":\"2024-01-01T00:00:00.000Z\",\"details\":\x7b\"ns\":\"default\"\x7d,\"envName\":\"prod\",\"id\":\"k8s-1\",\"target\":\"k8s\"\x7d"

/-- The digests of the payload as it is signed and as it is returned, under a secret of 32
letters. -/
def clusterHost : DeployHost where
  toHmacHost := { dateHost with
    hmacSha256 := fun _ m =>
      if m = wrappedText then
        bufferFromHex (js "9194e99b12e0cc4bb752c16248c3411b2875d41c48e5403a6051108879c936a5")
      else bufferFromHex (js "03244801ea6fa84618101ec11737cd6dab79453badfbdcad5589955c061ca810") }
  dataDir := js "/d"
  sha256 := id
  isoString _ := .ok (js "2024-01-01T00:00:00.000Z")

def wrappedRecord : DeploymentRecord where
  payload := wrappedPayload
  hmac := js "9194e99b12e0cc4bb752c16248c3411b2875d41c48e5403a6051108879c936a5"

theorem wrappedDetails_encode :
    encode (.obj wrappedPayload.details) = .ok (js "\x7b\"ns\":\"default\"\x7d") := by
  rw [encode, sortKeys_encodeFields (by decide)]
  rfl

/-- The members of the payload in its own order. -/
def wrappedMembers : List (JsString × JsString) :=
  [(js "id", js "\"k8s-1\""), (js "backendName", js "\"k8s\""), (js "target", js "\"k8s\""),
    (js "envName", js "\"prod\""), (js "artifactLocation", js "\"k8s://abc\""),
    (js "details", js "\x7b\"ns\":\"default\"\x7d"),
    (js "deployedAt", js "\"2024-01-01T00:00:00.000Z\"")]

/-- The members in the order of their keys. -/
def wrappedSorted : List (JsString × JsString) :=
  [(js "artifactLocation", js "\"k8s://abc\""), (js "backendName", js "\"k8s\""),
    (js "deployedAt", js "\"2024-01-01T00:00:00.000Z\""),
    (js "details", js "\x7b\"ns\":\"default\"\x7d"), (js "envName", js "\"prod\""),
    (js "id", js "\"k8s-1\""), (js "target", js "\"k8s\"")]

theorem wrappedPayload_encode : encode (.obj wrappedPayload.fields) = .ok wrappedText := by
  apply encode_obj_iff.mpr
  refine ⟨wrappedMembers, ?_, ?_⟩
  · change [_, _, _, _, _, (js "details", encode (.obj wrappedPayload.details)), _] = _
    rw [wrappedDetails_encode]
    rfl
  · have hperm : wrappedMembers.Perm wrappedSorted := by decide
    rw [sortKeys_eq_of_perm hperm (by decide) (by decide)]
    decide +kernel

theorem clusterHost_secret :
    clusterHost.getSecret = .ok (encodeUtf8 (List.replicate 32 0x78)) := rfl

theorem clusterHost_digest (key : List UInt8) :
    clusterHost.hmacSha256 key wrappedText = bufferFromHex wrappedRecord.hmac := by
  simp only [clusterHost, wrappedRecord, ↓reduceIte]

theorem wrappedRecord_verifies : verifyDeploymentRecord clusterHost wrappedRecord = true := by
  apply verifyDeploymentRecord_iff.mpr
  exact ⟨_, _, clusterHost_secret, wrappedPayload_encode, (clusterHost_digest _).symm⟩

theorem wrappedRecord_differs (q : DeploymentRecordPayload) :
    DigestsDiffer clusterHost wrappedPayload q := by
  intro key text text' htext _ hsame
  obtain rfl := Except.ok.inj (wrappedPayload_encode.symm.trans htext)
  by_contra hne
  simp only [clusterHost, ↓reduceIte, if_neg (Ne.symm hne)] at hsame
  revert hsame
  decide

def clusterParams : Fields :=
  [(js "cluster_id", .str (js "c1")), (js "manifest_path", .str (js "app.yml")),
    (js "deployment_name", .str (js "app"))]

/-- What the wrapped backend is called with. -/
def clusterTranslated : Fields :=
  [(js "cluster_id", .str (js "c1")), (js "namespace", .str (js "default")),
    (js "manifest_path", .str (js "app.yml")), (js "deployment_name", .str (js "app")),
    (js "ready_timeout_seconds", .num (.ofNat 180)), (js "context_name", .str (js "ctx")),
    (js "scopedKubeconfig", .str (js "kubeconfig"))]

def clusterArtifact : BuildArtifact := ⟨js "k8s-manifest", js "k8s://abc", js "cafe1234", []⟩

def clusterLog : List (Exchange DeployAnswer) :=
  [⟨.resolveContextName (.str (js "c1")), .ok (js "ctx")⟩,
    ⟨.acquire (.str (js "c1")) (js "K8s:Apply") (js "cluster:ctx/namespace:default"),
      .ok (.str (js "kubeconfig"))⟩,
    ⟨.k8sDeploy clusterArtifact (js "prod") clusterTranslated, .ok wrappedRecord⟩]

theorem cluster_run : Talks (mayDeploy clusterHost)
    (k3sDeploy clusterArtifact (js "prod") clusterParams) clusterLog
    (.ok (decorate (.str (js "c1")) wrappedRecord)) := by
  have hinner : mayDeploy clusterHost (.k8sDeploy clusterArtifact (js "prod") clusterTranslated)
      (.ok wrappedRecord) := ⟨wrappedRecord_verifies, rfl⟩
  exact .ask trivial (.ask trivial (.ask hinner (.done _)))

theorem cluster_inner {inner : DeploymentRecord} (h : ∃ x ∈ clusterLog, Returned inner x) :
    inner = wrappedRecord := by
  obtain ⟨x, hx, hreturned⟩ := h
  simp only [clusterLog, List.mem_cons, List.not_mem_nil, or_false] at hx
  rcases hx with rfl | rfl | rfl
  · exact hreturned.elim
  · exact hreturned.elim
  · exact Eq.symm hreturned

theorem cluster_differs (inner : DeploymentRecord) (h : ∃ x ∈ clusterLog, Returned inner x) :
    DigestsDiffer clusterHost inner.payload (decorate (.str (js "c1")) wrappedRecord).payload := by
  rw [cluster_inner h]
  exact wrappedRecord_differs _

/-- The theorem on a deploy to k3s. -/
theorem record_verifies_cluster :
    VerifiesTwice clusterHost (decorate (.str (js "c1")) wrappedRecord) ↔
      (DeployBackend.k3s = .k3s → ∀ inner, (∃ x ∈ clusterLog, Returned inner x) →
        AlreadyDecorated clusterParams inner) :=
  record_verifies_iff .k3s clusterHost ⟨true, none⟩ 0 clusterArtifact (js "prod") clusterParams
    rfl rfl clusterLog _ cluster_run cluster_differs

/-- Not every record that a deploy returns verifies: k3s keeps the HMAC of what it changes. -/
theorem record_verifies_fails : ¬ ∀ (b : DeployBackend) (host : DeployHost)
    (config : StatefulDeployConfig) (turns : ℕ) (artifact : BuildArtifact) (env : JsString)
    (rawParams : Fields), WellOrdered (.obj artifact.metadata) → WellOrdered (.obj rawParams) →
    ∀ (log : List (Exchange DeployAnswer)) (record : DeploymentRecord),
      Talks (mayDeploy host) (b.deploy host config turns artifact env rawParams) log (.ok record) →
        VerifiesTwice host record := by
  intro h
  have hverifies := h .k3s clusterHost ⟨true, none⟩ 0 clusterArtifact (js "prod") clusterParams
    rfl rfl clusterLog _ cluster_run
  obtain ⟨hname, _⟩ := (decorate_verifies_iff wrappedRecord_verifies rfl
    (wrappedRecord_differs _)).mp hverifies
  revert hname
  decide

end Homelab
