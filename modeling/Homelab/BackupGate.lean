import Homelab.BackupSound
import Homelab.Gate

/-! The backup check of the gate over the manifest that `verifyBackup` reads. -/
namespace Homelab
open Js Effect

/-- The error object that a caller of `verifyBackup` catches. -/
def BackupError.thrown (e : BackupError) : JsValue := .obj [(js "message", .str e.message)]

def thrownBy : Except BackupError JsValue → Option JsValue
  | .ok _ => none
  | .error e => some e.thrown

/-- The collaborators, with the backup check that the gate imports. -/
def readingManifest (c : Collaborators) (rt : BackupRuntime)
    (file : Except ErrnoException JsString) : Collaborators :=
  { c with
    verifyBackup := fun _ platform target => thrownBy (verifyBackup rt file ⟨platform, target, none⟩) }

def isBackupCheck : GateEvent → Bool
  | .verifiedBackup _ _ _ => true
  | _ => false

def backupChecks (trace : GateTrace) : GateTrace := trace.filter isBackupCheck

/-! ### Only `runBackupCheck` checks backups -/

section Frame

variable (c : Collaborators) (ctx : GateContext)

theorem backupChecks_append {e : GateEvent} (he : isBackupCheck e = false) (trace : GateTrace) :
    backupChecks (trace ++ [e]) = backupChecks trace := by
  rw [backupChecks, List.filter_append, List.filter_cons_of_neg (by rw [he]; exact Bool.false_ne_true),
    List.filter_nil, List.append_nil]
  rfl

theorem throwIf_keeps (thrown : Option JsValue) : Keeps backupChecks (throwIf thrown) := by
  cases thrown with
  | none => exact Within.pure _
  | some value => exact Within.throw _

/-- A call that is recorded as another event keeps the backup checks. -/
theorem record_keeps {α : Type} (event : GateTrace → GateEvent)
    (hevent : ∀ trace, isBackupCheck (event trace) = false) {answer : GateTrace → Gate α}
    (hanswer : ∀ trace, Keeps backupChecks (answer trace)) :
    Keeps backupChecks (do let trace ← get; set (trace ++ [event trace]); answer trace) := by
  constructor
  intro trace
  exact ((hanswer trace).rel (trace ++ [event trace])).trans (backupChecks_append (hevent trace) trace)

theorem audit_keeps (event : SafetyAuditEvent) : Keeps backupChecks (audit ctx event) :=
  record_keeps (fun trace => .audited event (ctx.audit trace event)) (fun _ => rfl)
    fun _ => throwIf_keeps _

theorem scheduleDelayedAction_keeps (actionId report : JsString) (delayMs : ℕ) :
    Keeps backupChecks (scheduleDelayedAction c actionId report delayMs) :=
  record_keeps (fun trace => .delayed actionId report delayMs
    (c.scheduleDelayedAction trace actionId report delayMs)) (fun _ => rfl) fun _ => throwIf_keeps _

theorem typedConfirmModal_keeps (input : TypedConfirmInput) :
    Keeps backupChecks (typedConfirmModal c input) :=
  record_keeps (fun trace => .modal input (c.race trace input)) (fun _ => rfl) fun _ => Within.pure _

theorem now_keeps : Keeps backupChecks (now c) := Within.bind Within.get fun _ => Within.pure _

theorem emitMetric_keeps (event : MetricEvent) : Keeps backupChecks (emitMetric c event) :=
  Within.bind Within.get fun _ => throwIf_keeps _

theorem confirmAndAllow_keeps (action : Action) (input : TypedConfirmInput)
    (denied rejection allowed : JsString) :
    Keeps backupChecks (confirmAndAllow c ctx action input denied rejection allowed) := by
  apply Within.bind (typedConfirmModal_keeps c input)
  intro _
  apply Within.bind (now_keeps c)
  intro _
  apply Within.ite
  · exact Within.bind (audit_keeps ctx _) fun _ => Within.pure _
  · exact Within.bind (audit_keeps ctx _) fun _ => Within.throw _

theorem emitLatency_keeps (action : Action) (metrics : Option GateMetricsHook) :
    Keeps backupChecks (emitLatency c action metrics) := by
  cases metrics with
  | none => exact Within.pure _
  | some m => exact emitMetric_keeps c _

theorem ensuring_keeps {α : Type} {m : Gate α} {last : Gate Unit} {trace : GateTrace}
    (hlast : Keeps backupChecks last) :
    backupChecks (after ((ensuring m last).run trace)) = backupChecks (after (m.run trace)) := by
  cases hm : m.run trace with
  | ok a t =>
    rw [run_ensuring_ok hm]
    exact (Within.bind hlast fun _ => Within.pure _).rel t
  | error e t =>
    rw [run_ensuring_error hm]
    exact (Within.bind hlast fun _ => Within.throw _).rel t

end Frame

/-! ### The check of a data-affecting or architectural action -/

/-- The gate asks for the backup of an action of this class. -/
def NeedsBackup (action : Action) : Prop :=
  action.destructiveness = .dataAffecting ∨
    action.destructiveness = .architectural ∧ action.dryRunReport.getD [] ≠ []

section Check

variable (c : Collaborators) (ctx : GateContext) (action : Action)

/-- Without the bypass the check is the first step, and its answer is the only one recorded. -/
theorem verifyThen_checks {α : Type} {rest : Unit → Gate α}
    (hrest : ∀ u, Keeps backupChecks (rest u)) :
    backupChecks (after ((verifyBackupFor c action >>= rest).run [])) =
      [.verifiedBackup action.platform action.resource
        (c.verifyBackup [] action.platform action.resource)] := by
  have hrun : (verifyBackupFor c action).run [] =
      (throwIf (c.verifyBackup [] action.platform action.resource)).run
        [.verifiedBackup action.platform action.resource
          (c.verifyBackup [] action.platform action.resource)] := rfl
  cases hv : c.verifyBackup [] action.platform action.resource with
  | none =>
    rw [hv] at hrun
    rw [run_bind_ok hrun]
    exact (hrest ()).rel _
  | some value =>
    rw [hv] at hrun
    rw [run_bind_error hrun]
    rfl

theorem gateApproval_checks (metrics : Option GateMetricsHook) (hneeds : NeedsBackup action)
    (hskip : ctx.skipBackupCheck ≠ some true) :
    backupChecks (after ((gateApproval c ctx action metrics).run [])) =
      [.verifiedBackup action.platform action.resource
        (c.verifyBackup [] action.platform action.resource)] := by
  rw [gateApproval, ensuring_keeps (emitLatency_keeps c action metrics), routeApproval]
  rcases hneeds with hclass | ⟨hclass, hreport⟩
  · rw [hclass]
    dsimp only
    rw [requestDataAffectingApproval, runBackupCheck, if_neg hskip]
    exact verifyThen_checks c action fun _ => confirmAndAllow_keeps ..
  · rw [hclass]
    dsimp only
    rw [requestArchitecturalApproval, if_neg hreport, approveArchitectural, runBackupCheck,
      if_neg hskip]
    apply verifyThen_checks
    intro _
    apply Within.bind (scheduleDelayedAction_keeps ..)
    exact fun _ => confirmAndAllow_keeps ..

/-- An architectural action without its report is refused before the check. -/
theorem gateApproval_unchecked (metrics : Option GateMetricsHook)
    (hclass : action.destructiveness = .architectural) (hreport : action.dryRunReport.getD [] = []) :
    backupChecks (after ((gateApproval c ctx action metrics).run [])) = [] := by
  rw [gateApproval, ensuring_keeps (emitLatency_keeps c action metrics), routeApproval, hclass]
  dsimp only
  rw [requestArchitecturalApproval, if_pos hreport]
  rfl

end Check

/-! ### Evidence for the target -/

/-- The manifest holds a verified, fresh entry for the platform and the target. -/
def Covered (rt : BackupRuntime) (input : VerifyInput) (entries : List JsValue) : Prop :=
  ∃ e ∈ entries, property (js "platform") e = .str input.platform ∧
    property (js "target_id") e = .str input.target ∧ HmacVerifies rt e ∧ Fresh rt input e

/-- Some signed entry names the platform and the target, and is dated, limited by a number
and not older than its limit. -/
def NamesTarget (rt : BackupRuntime) (input : VerifyInput) (entries : List JsValue) : Prop :=
  ∃ e ∈ entries, property (js "platform") e = .str input.platform ∧
    property (js "target_id") e = .str input.target ∧ property (js "hmac") e ≠ .str [] ∧
    (takenAt rt e).isSome ∧ (maxAge input e).toNumber ≠ .nan ∧ ¬Stale rt input e

/-- In a manifest without tampered entries a signature is enough. -/
theorem covered_iff {rt : BackupRuntime} {input : VerifyInput} {entries : List JsValue}
    (hpasses : ∀ e ∈ entries, Passes rt e) :
    Covered rt input entries ↔ NamesTarget rt input entries := by
  constructor
  · intro h
    obtain ⟨e, he, hplatform, htarget, ⟨hmac, digest, hp, hne, hdigest, heq⟩, hfresh⟩ := h
    refine ⟨e, he, hplatform, htarget, ?_, fresh_iff.mp hfresh⟩
    rw [hp]
    exact fun heq => hne (JsValue.str.inj heq)
  · intro h
    obtain ⟨e, he, hplatform, htarget, hsigned, hfresh⟩ := h
    exact ⟨e, he, hplatform, htarget, (hpasses e he).signed.resolve_left hsigned,
      fresh_iff.mpr hfresh⟩

/-- The target that the gate hands to `verifyBackup`. -/
def backupInput (action : Action) : VerifyInput := ⟨action.platform, action.resource, none⟩

theorem thrownBy_eq_none {r : Except BackupError JsValue} : thrownBy r = none ↔ ∃ e, r = .ok e := by
  cases r with
  | ok e => exact ⟨fun _ => ⟨e, rfl⟩, fun _ => rfl⟩
  | error e =>
    constructor
    · intro h
      cases h
    · intro h
      obtain ⟨_, hok⟩ := h
      cases hok

section Covers

variable (c : Collaborators) (ctx : GateContext) (action : Action)
  (metrics : Option GateMetricsHook) (rt : BackupRuntime) (file : Except ErrnoException JsString)

/-- The check passes where the manifest has an acceptable entry of the platform. -/
theorem checkPasses_iff (hneeds : NeedsBackup action) (hskip : ctx.skipBackupCheck ≠ some true) :
    .verifiedBackup action.platform action.resource none ∈
        after ((gateApproval (readingManifest c rt file) ctx action metrics).run []) ↔
      ∃ entries f, readManifest rt file = .ok entries ∧ Accepts rt (backupInput action) entries f := by
  have hchecks := gateApproval_checks (readingManifest c rt file) ctx action metrics hneeds hskip
  have hmem (trace : GateTrace) (p r : JsString) (t : Option JsValue) :
      .verifiedBackup p r t ∈ trace ↔ .verifiedBackup p r t ∈ backupChecks trace := by
    rw [backupChecks, List.mem_filter]
    exact (and_iff_left rfl).symm
  rw [hmem, hchecks, List.mem_singleton, GateEvent.verifiedBackup.injEq]
  constructor
  · intro h
    obtain ⟨f, hok⟩ := thrownBy_eq_none.mp h.2.2.symm
    obtain ⟨entries, hread, haccepts⟩ := (verifyBackup_iff rt _).mp hok
    exact ⟨entries, f, hread, haccepts⟩
  · intro h
    obtain ⟨entries, f, hread, haccepts⟩ := h
    have hok := (verifyBackup_iff rt (backupInput action)).mpr ⟨entries, hread, haccepts⟩
    have hnone : thrownBy (verifyBackup rt file (backupInput action)) = none :=
      thrownBy_eq_none.mpr ⟨f, hok⟩
    exact ⟨rfl, rfl, hnone.symm⟩

end Covers

/-! ### A backup of another target -/

def backupOfA : Fields :=
  [(js "backup_type", .str (js "pg_dump")), (js "checksum", .str []),
    (js "location", .str (js "/b/a.gz")), (js "max_age_seconds", .num (.ofNat 86400)),
    (js "platform", .str (js "postgres")), (js "schema_version", .num (.ofNat 2)),
    (js "size_bytes", .num (.ofNat 10)), (js "taken_at", .str (js "2026-01-01T00:00:00.000Z")),
    (js "target_id", .str (js "a")), (js "verified", .bool false)]

def digestOfA : JsString :=
  js "a496c610ffd02381911204d90cfc33a033a0fcefb65759ba4f8ddf14f9a27756"

/-- The digest of `backupOfA` under the secret of `january`. -/
def digestTable (_ : Bytes) (text : JsString) : Bytes :=
  if text = jsonText (.obj backupOfA) then bufferFromHex digestOfA else []

theorem digestTable_ofA (key : Bytes) :
    digestTable key (jsonText (.obj backupOfA)) = bufferFromHex digestOfA := by
  rw [digestTable, if_pos rfl]

def januarySigning : BackupRuntime := { january with hmacSha256 := digestTable }

def signedA : JsValue := .obj (setOwn (js "hmac") (.str digestOfA) backupOfA)

def manifestOfA : JsString := jsonText (.obj [(js "schema_version", .num (.ofNat 2)),
  (js "entries", .arr [signedA])])

/-- A table of the database `b` is to be dropped. -/
def dropInB : Action :=
  ⟨js "drop", .dataAffecting, js "postgres", js "b", js "drop a table", none⟩

def obliging : Collaborators where
  race _ _ := ⟨[.line (js "CONFIRM")], []⟩
  verifyBackup _ _ _ := none
  scheduleDelayedAction _ _ _ _ := none
  now _ := js "2026-01-01T00:00:00.000Z"
  emit _ _ := none

def plainContext : GateContext where
  typedConfirmTtlSeconds := none
  skipBackupCheck := none
  isAdmin _ := .ok false
  audit _ _ := none

theorem readManifest_ofA : readManifest januarySigning (.ok manifestOfA) = .ok [signedA] := by
  have hparse : jsonParse manifestOfA = some (.obj [(js "schema_version", .num (.ofNat 2)),
      (js "entries", .arr [signedA])]) := jsonParse_jsonText _ (by decide)
  rw [readManifest, hparse]
  rfl

theorem signedA_verifies : HmacVerifies januarySigning signedA := by
  have htext : canonicalJson (.obj backupOfA) = .ok (jsonText (.obj backupOfA)) := by
    rw [canonicalJson, encode, sortKeys_encodeFields (by decide)]
    rfl
  have hdigest : entryDigest januarySigning backupOfA =
      .ok (januarySigning.hmacSha256 (List.replicate 32 0x30) (jsonText (.obj backupOfA))) := by
    rw [entryDigest, htext]
    rfl
  have hmac : januarySigning.hmacSha256 = digestTable := rfl
  have hproperty : property (js "hmac") signedA = .str digestOfA := rfl
  have hrest : withoutHmac signedA = backupOfA := rfl
  rw [hmac, digestTable_ofA, ← hrest] at hdigest
  exact ⟨digestOfA, _, hproperty, List.cons_ne_nil _ _, hdigest, rfl⟩

theorem accepts_signedA :
    Accepts januarySigning (backupInput dropInB) [signedA] signedA := by
  have hcandidates : candidatesFor (backupInput dropInB).platform [signedA] = [signedA] := rfl
  refine ⟨List.forall_mem_singleton.mpr ⟨⟨_, rfl⟩, Or.inr signedA_verifies⟩, ?_, ?_, rfl, ?_⟩
  · rw [hcandidates]
    exact List.forall_mem_singleton.mpr rfl
  · have hdates : consistentDates januarySigning [signedA] = true := rfl
    rw [hcandidates, sortByDate, hdates, List.mergeSort_singleton]
    rfl
  · intro hstale
    obtain ⟨taken, htaken, hlt⟩ := hstale
    have hnow : takenAt januarySigning signedA = some 1767225600000 := rfl
    have hfresh : (maxAge (backupInput dropInB) signedA).toNumber.lt
        (ageSeconds januarySigning 1767225600000) = false := by decide +kernel
    rw [hnow] at htaken
    cases htaken
    exact Bool.false_ne_true (hfresh.symm.trans hlt)

end Homelab
