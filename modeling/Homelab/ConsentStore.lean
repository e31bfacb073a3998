import Homelab.AdminEnforcement
import Homelab.LockedStore
import Homelab.Yaml

/-! The consent file under `withFileLock`: grants and revocations of any number of consent managers
take turns at it. -/
namespace Homelab
open Js Locked

/-! ### Calls -/

/-- The consent that `requestConsent` adds once it is approved. -/
structure Grant where
  cidr : JsString
  approvedAt : JsString
  expiresAt : JsString
  networkFingerprint : JsString
  permittedPorts : List JsValue
  permittedScanTypes : List JsValue

def Grant.value (g : Grant) : JsValue :=
  .obj [(js "cidr", .str g.cidr), (js "approved_at", .str g.approvedAt),
    (js "expires_at", .str g.expiresAt), (js "network_fingerprint", .str g.networkFingerprint),
    (js "permitted_ports", .arr g.permittedPorts),
    (js "permitted_scan_types", .arr g.permittedScanTypes)]

/-- What a call does under the lock. -/
inductive ConsentOp
  | request (grant : Grant)
  | revoke (cidr : JsString)

/-- A call that has come to the lock, and what the audit writer answers to its appends, if its
manager has one. -/
structure ConsentCall where
  op : ConsentOp
  audit : Option (ℕ → Except JsString Unit)

/-- What a call has done under the lock. -/
inductive ConsentResult
  | granted (grant : Grant)
  | revoked (removed : List JsValue)

/-- `loadFile`, of a file that can be read or is absent -/
def readConsents (yaml : Yaml) (file : Option JsString) : Except JsString (List JsValue) :=
  loadConsents yaml.load ((foundFile file).mapError fun e => e.error)

/-- What `requestConsent` and `revokeConsent` do to the consents under the lock. -/
def runConsent (call : ConsentCall) (consents : List JsValue) :
    Except JsString (Option (List JsValue) × ConsentResult) :=
  match call.op with
  | .request grant => .ok (some (consents ++ [grant.value]), .granted grant)
  | .revoke cidr =>
    match splitConsents cidr consents with
    | .error message => .error message
    | .ok (removed, kept) => .ok (if removed = [] then none else some kept, .revoked removed)

def consentStore (yaml : Yaml) :
    DocStore (Option JsString) (List JsValue) ConsentCall ConsentResult JsString where
  read := readConsents yaml
  run := runConsent
  write consents := (yaml.dump (consentFileValue consents)).map some

def consentPlan (yaml : Yaml) : ConsentCall → Option JsString →
    Plan (Option JsString) ConsentResult JsString := (consentStore yaml).plan

/-- What is appended to the audit log once the lock is released. -/
def ConsentResult.events : ConsentResult → List (JsString × JsValue)
  | .granted g => [(js "consent_granted", .obj [(js "cidr", .str g.cidr),
      (js "ports", .arr g.permittedPorts), (js "scan_types", .arr g.permittedScanTypes),
      (js "expires_at", .str g.expiresAt), (js "network_fingerprint", .str g.networkFingerprint)])]
  | .revoked removed => removed.map fun entry => (js "consent_revoked",
      .obj [(js "cidr", property (js "cidr") entry), (js "ports", property (js "permitted_ports") entry),
        (js "scan_types", property (js "permitted_scan_types") entry),
        (js "approved_at", property (js "approved_at") entry),
        (js "expires_at", property (js "expires_at") entry)])

def ConsentResult.answer : ConsentResult → JsValue
  | .granted _ => .bool true
  | .revoked removed => .num (.ofNat removed.length)

/-- The first append that is rejected rejects the call. -/
def auditConsent (call : ConsentCall) (r : ConsentResult) : Except JsString JsValue :=
  match call.audit with
  | none => .ok r.answer
  | some answers => do
    (List.range r.events.length).forM answers
    return r.answer

/-- What the caller gets. -/
def consentResult (call : ConsentCall) : Outcome ConsentResult JsString → Except JsString JsValue
  | .returned r => auditConsent call r
  | .refused message => .error message
  | .failed message => .error message

/-! ### Sequences of calls -/

/-- The consents after an operation. -/
def ConsentOp.apply (consents : List JsValue) : ConsentOp → List JsValue
  | .request grant => consents ++ [grant.value]
  | .revoke cidr => consents.filter fun e => !namesCidr cidr e

abbrev SettledConsent := ConsentCall × Outcome ConsentResult JsString

/-- The consents after calls that run one after the other. -/
def consentsAfter (consents : List JsValue) (calls : List ConsentCall) : List JsValue :=
  calls.foldl (fun consents call => call.op.apply consents) consents

variable {yaml : Yaml} {file : Option JsString} {call : ConsentCall} {r : ConsentResult}
  {consents : List JsValue} {cs : List SettledConsent}

/-- `js-yaml` reads what it has written of a consent file. -/
def LoadsConsents (yaml : Yaml) : Prop :=
  ∀ consents text, yaml.dump (consentFileValue consents) = .ok text →
    yaml.load text = .ok (consentFileValue consents)

theorem readConsents_text (hyaml : LoadsConsents yaml) {text : JsString}
    (h : yaml.dump (consentFileValue consents) = .ok text) :
    readConsents yaml (some text) = .ok consents := by
  change (yaml.load text >>= _) = _
  rw [hyaml consents text h]
  rfl

theorem consentStore_readsBack (hyaml : LoadsConsents yaml) : (consentStore yaml).ReadsBack := by
  intro consents file hwrite
  change (yaml.dump (consentFileValue consents)).map some = .ok file at hwrite
  cases hdump : yaml.dump (consentFileValue consents) with
  | error message =>
    rw [hdump] at hwrite
    cases hwrite
  | ok text =>
    rw [hdump] at hwrite
    cases hwrite
    exact readConsents_text hyaml hdump

/-- A revocation that removes nothing leaves the consents as they are. -/
theorem filter_others_eq_self {cidr : JsString} (h : consents.filter (namesCidr cidr) = []) :
    (consents.filter fun e => !namesCidr cidr e) = consents := by
  rw [List.filter_eq_self]
  intro e he
  have hnot := List.filter_eq_nil_iff.mp h e he
  rw [Bool.not_eq_true] at hnot
  rw [hnot]
  rfl

/-- What a call makes of the consents, if it returns. -/
theorem runConsent_apply {out : Option (List JsValue)} (h : runConsent call consents = .ok (out, r)) :
    out.getD consents = call.op.apply consents := by
  rw [runConsent] at h
  cases hop : call.op with
  | request grant =>
    rw [hop] at h
    cases h
    rfl
  | revoke cidr =>
    rw [hop] at h
    dsimp only at h
    rcases splitConsents_eq cidr consents with ⟨hsplit, _⟩ | ⟨⟨message, hsplit⟩, _⟩
    · rw [hsplit] at h
      cases h
      by_cases hnone : consents.filter (namesCidr cidr) = []
      · rw [if_pos hnone]
        exact (filter_others_eq_self hnone).symm
      · rw [if_neg hnone]
        rfl
    · rw [hsplit] at h
      cases h

/-! ### Runs -/

/-- One call after the other takes the consents to where those that have returned take them. -/
theorem consentSteps_foldl {consents' : List JsValue}
    (h : OneByOne (consentStore yaml).Step consents cs consents') :
    consents' = consentsAfter consents (returnedOps cs) := by
  induction h with
  | nil => rfl
  | @snoc cs b b' c _ hlast ih =>
    rw [returnedOps_append, consentsAfter, List.foldl_append]
    change b' = (returnedOps [c]).foldl _ (consentsAfter consents (returnedOps cs))
    rw [← ih, returnedOps, List.filterMap_cons, returnedOp?]
    rw [DocStore.Step] at hlast
    cases houtcome : c.2 with
    | returned r =>
      rw [houtcome] at hlast
      obtain ⟨out, hrun, hb, _⟩ := hlast
      rw [hb]
      exact runConsent_apply hrun
    | refused message =>
      rw [houtcome] at hlast
      exact hlast.1
    | failed message =>
      rw [houtcome] at hlast
      exact hlast

section After

variable {calls before after : List ConsentCall} {grant : Grant} {entry : JsValue}

theorem namesCidr_grant {cidr : JsString} : namesCidr cidr grant.value = true ↔ grant.cidr = cidr := by
  change decide (grant.cidr = cidr) = true ↔ _
  exact decide_eq_true_iff

theorem consentsAfter_cons {d : ConsentCall} :
    consentsAfter consents (d :: calls) = consentsAfter (d.op.apply consents) calls := rfl

theorem consentsAfter_append {ds : List ConsentCall} :
    consentsAfter consents (calls ++ ds) = consentsAfter (consentsAfter consents calls) ds := by
  rw [consentsAfter, List.foldl_append]
  rfl

/-- A grant stays until its CIDR is revoked. -/
theorem consentsAfter_keeps (hgrant : grant.value ∈ consents)
    (hcalls : ∀ d ∈ calls, d.op ≠ .revoke grant.cidr) : grant.value ∈ consentsAfter consents calls := by
  induction calls generalizing consents with
  | nil => exact hgrant
  | cons d calls ih =>
    rw [consentsAfter_cons]
    apply ih
    · have hd := hcalls d (List.mem_cons_self ..)
      cases hop : d.op with
      | request other => exact List.mem_append_left _ hgrant
      | revoke cidr =>
        have hother : ¬ namesCidr cidr grant.value = true := by
          intro hnames
          rw [hop, namesCidr_grant.mp hnames] at hd
          exact hd rfl
        rw [Bool.not_eq_true] at hother
        apply List.mem_filter.mpr
        rw [hother]
        exact ⟨hgrant, rfl⟩
    · intro e he
      exact hcalls e (List.mem_cons_of_mem _ he)

/-- An entry was there before, or one of the calls has granted it. -/
theorem consentsAfter_mem (h : entry ∈ consentsAfter consents calls) :
    entry ∈ consents ∨ ∃ d ∈ calls, ∃ g, d.op = .request g ∧ entry = g.value := by
  induction calls generalizing consents with
  | nil => exact Or.inl h
  | cons d calls ih =>
    rw [consentsAfter_cons] at h
    rcases ih h with hentry | ⟨e, he, g, hg, hvalue⟩
    · cases hop : d.op with
      | request g =>
        rw [hop] at hentry
        rcases List.mem_append.mp hentry with hentry | hentry
        · exact Or.inl hentry
        · exact Or.inr ⟨d, List.mem_cons_self .., g, hop, List.mem_singleton.mp hentry⟩
      | revoke cidr =>
        rw [hop] at hentry
        exact Or.inl (List.mem_filter.mp hentry).1
    · exact Or.inr ⟨e, List.mem_cons_of_mem _ he, g, hg, hvalue⟩

/-- A call that grants is not undone but by a later revocation of its CIDR. -/
theorem consentsAfter_granted {call : ConsentCall} (hop : call.op = .request grant)
    (hafter : ∀ d ∈ after, d.op ≠ .revoke grant.cidr) :
    grant.value ∈ consentsAfter consents (before ++ call :: after) := by
  rw [consentsAfter_append, consentsAfter_cons, hop]
  apply consentsAfter_keeps _ hafter
  exact List.mem_append_right _ (List.mem_singleton_self _)

/-- What has a revoked CIDR was granted later. -/
theorem consentsAfter_revoked {call : ConsentCall} {cidr : JsString} (hop : call.op = .revoke cidr)
    (h : entry ∈ consentsAfter consents (before ++ call :: after)) (hentry : namesCidr cidr entry = true) :
    ∃ d ∈ after, ∃ g, d.op = .request g ∧ entry = g.value := by
  rw [consentsAfter_append, consentsAfter_cons, hop] at h
  rcases consentsAfter_mem h with hkept | hgranted
  · have hnot := (List.mem_filter.mp hkept).2
    rw [hentry] at hnot
    cases hnot
  · exact hgranted

end After

def labGrant : Grant where
  cidr := js "10.0.0.0/24"
  approvedAt := js "2026-05-01T00:00:00.000Z"
  expiresAt := js "2026-07-30T00:00:00.000Z"
  networkFingerprint := js "route=10.0.0.1;dns=10.0.0.1"
  permittedPorts := [.num (.ofNat 22)]
  permittedScanTypes := [.str (js "tcp-connect")]

/-- Approved, by a manager whose audit log cannot be written. -/
def labRequest : ConsentCall := ⟨.request labGrant, some fun _ => .error (js "audit log locked")⟩

def labText : JsString := jsonText (consentFileValue [labGrant.value])

theorem loadsConsents_jsonYaml : LoadsConsents jsonYaml := fun _ _ h => jsonYaml_load_dump h

theorem labRequest_plan :
    consentPlan jsonYaml labRequest none = .writes (some labText) (.granted labGrant) := by
  with_unfolding_all rfl

theorem labRequest_runs :
    (lockedFile (consentPlan jsonYaml)).Runs ⟨none, none⟩
      (⟨some labText, none⟩, [⟨labRequest, .settled (.returned (.granted labGrant))⟩]) := by
  have hstart : (lockedFile (consentPlan jsonYaml)).Runs ⟨none, none⟩
      (⟨none, none⟩, []) := .refl
  exact Runs.writes_last hstart (fun _ hb => absurd hb List.not_mem_nil) labRequest_plan

end Homelab
