import Homelab.Autofix

/-! Which proposals on disk make `autofix apply` execute nothing but what has been classified and
confirmed. -/
namespace Homelab
open Js Effect

/-! ### The word that the gate expects -/

/-- No modal has been asked for another word than the usual one. -/
def AsksConfirm (trace : GateTrace) : Prop :=
  ∀ input race, GateEvent.modal input race ∈ trace → input.expectedWord = none

section Word

variable (c : Collaborators) (ctx : GateContext) {action : Action} {trace : GateTrace}

theorem AsksConfirm.append {e : GateEvent} (h : AsksConfirm trace)
    (he : ∀ input race, e = .modal input race → input.expectedWord = none) : AsksConfirm (trace ++ [e]) := by
  intro input race hmem
  rcases List.mem_append.mp hmem with hmem | hmem
  · exact h input race hmem
  · exact he input race (List.mem_singleton.mp hmem).symm

theorem throwIf_after (thrown : Option JsValue) : after ((throwIf thrown).run trace) = trace := by
  cases thrown <;> rfl

theorem audit_asks (event : SafetyAuditEvent) : Within (Stays AsksConfirm) (audit ctx event) := by
  constructor
  intro s hs
  rw [audit_run, throwIf_after]
  exact hs.append fun _ _ h => GateEvent.noConfusion h

theorem verifyBackupFor_asks (action : Action) : Within (Stays AsksConfirm) (verifyBackupFor c action) := by
  constructor
  intro s hs
  change AsksConfirm (after ((throwIf (c.verifyBackup s action.platform action.resource)).run
    (s ++ [.verifiedBackup action.platform action.resource
    (c.verifyBackup s action.platform action.resource)])))
  rw [throwIf_after]
  exact hs.append fun _ _ h => GateEvent.noConfusion h

theorem confirmAndAllow_asks (action : Action) {input : TypedConfirmInput} (h : input.expectedWord = none)
    (deniedReason rejection allowedReason : JsString) :
    Within (Stays AsksConfirm) (confirmAndAllow c ctx action input deniedReason rejection allowedReason) := by
  have hmodal : Within (Stays AsksConfirm) (typedConfirmModal c input) := by
    constructor
    intro s hs
    change AsksConfirm (s ++ [.modal input (c.race s input)])
    apply hs.append
    intro input' race' hsame
    cases hsame
    exact h
  apply hmodal.bind
  intro confirmed
  apply Within.bind (Within.bind Within.get fun t => Within.pure _)
  intro ts
  apply Within.ite
  · exact (audit_asks ctx _).bind fun _ => Within.pure _
  · exact (audit_asks ctx _).bind fun _ => Within.throw _

/-- Without flags and a report, the gate asks for no other word. -/
theorem gateApproval_asks (hskip : ctx.skipBackupCheck = none) (hreport : action.dryRunReport = none) :
    AsksConfirm (after ((gateApproval c ctx action none).run [])) := by
  have hroute : Within (Stays AsksConfirm) (routeApproval c ctx action none) := by
    rw [routeApproval]
    cases action.destructiveness with
    | readOnly =>
      apply Within.bind (Within.bind Within.get fun t => Within.pure _)
      exact fun ts => (audit_asks ctx _).bind fun _ => Within.pure _
    | reversible => exact confirmAndAllow_asks c ctx action rfl _ _ _
    | persistentModifying => exact confirmAndAllow_asks c ctx action rfl _ _ _
    | dataAffecting =>
      dsimp only
      rw [requestDataAffectingApproval, runBackupCheck, hskip, if_neg (Option.some_ne_none true).symm]
      exact (verifyBackupFor_asks c action).bind fun _ => confirmAndAllow_asks c ctx action rfl _ _ _
    | architectural =>
      dsimp only
      rw [requestArchitecturalApproval, hreport, if_pos (show (none : Option JsString).getD [] = [] from rfl)]
      exact Within.throw _
    | unknown text => exact Within.throw _
  have hgate : Within (Stays AsksConfirm) (gateApproval c ctx action none) := by
    apply Within.bind (Within.tryCatch (hroute.map _) fun e => Within.pure _)
    exact fun r => (Within.pure _).bind fun _ => Within.give r
  exact hgate.rel [] fun _ _ h => absurd h List.not_mem_nil

theorem typed_of_confirmed {e : GateEvent} (h : Confirmed e) (he : e ∈ trace) (hasks : AsksConfirm trace) :
    TypedConfirm e := by
  cases e with
  | modal input race =>
    rw [Confirmed, hasks input race he] at h
    exact h
  | _ => exact h.elim

end Word

/-! ### Granted proposals -/

variable {deps : AutofixDeps} {actionId proposalId : JsString} {raw : Option JsString} {proposal : JsValue}
  {stored : JsString → Option Observation} {x : JsValue × JsString} {trace : GateTrace} {action : Action}
  {command : JsString} {result : ApprovalResult}

/-- The gate grants an action without a report only to the class that it lets pass, or on the word of the
operator. -/
theorem granted_class (hreport : action.dryRunReport = none)
    (hgate : (gateApproval deps.gate deps.ctx action none).run [] = .ok result trace) :
    action.destructiveness = .readOnly ∨
      action.destructiveness ∈ [.reversible, .persistentModifying, .dataAffecting] ∧
        ∃ e ∈ trace, TypedConfirm e := by
  have hasks := gateApproval_asks deps.gate deps.ctx rfl hreport
  have houtcome := gateApproval_outcome deps.gate deps.ctx action none
  rw [hgate] at hasks houtcome
  change AsksConfirm trace at hasks
  cases houtcome with
  | allowed _ before event hevidence htype =>
    have htyped {e : GateEvent} (hmem : e ∈ before) (h : Confirmed e) :
        ∃ e ∈ before ++ [.audited event none], TypedConfirm e :=
      ⟨e, List.mem_append_left _ hmem, typed_of_confirmed h (List.mem_append_left _ hmem) hasks⟩
    cases hclass : action.destructiveness with
    | readOnly => exact .inl rfl
    | reversible =>
      obtain ⟨e, he, rfl⟩ := (evidence_standard (.inl hclass)).mp hevidence
      exact .inr ⟨by simp, htyped (List.mem_singleton_self e) he⟩
    | persistentModifying =>
      obtain ⟨e, he, rfl⟩ := (evidence_standard (.inr hclass)).mp hevidence
      exact .inr ⟨by simp, htyped (List.mem_singleton_self e) he⟩
    | dataAffecting =>
      obtain ⟨shown, e, -, he, rfl⟩ := (evidence_dataAffecting hclass).mp hevidence
      exact .inr ⟨by simp, htyped (List.mem_append_right _ (List.mem_singleton_self e)) he⟩
    | architectural =>
      obtain ⟨report, -, -, hsome, -⟩ := (evidence_architectural hclass).mp hevidence
      rw [hreport] at hsome
      cases hsome
    | unknown text =>
      rw [Evidence, hclass] at hevidence
      exact hevidence.elim

/-! ### A run in which nothing stands in the way -/

/-- The operator types the word at once, and there is a backup. -/
def willing : Collaborators where
  race _ _ := ⟨[.line (js "CONFIRM")], []⟩
  verifyBackup _ _ _ := none
  scheduleDelayedAction _ _ _ _ := none
  now _ := []
  emit _ _ := none

def willingDeps : AutofixDeps where
  gate := willing
  typedConfirmTtlSeconds := none
  isAdmin _ := .ok false
  audit _ _ := none
  getConnection := some fun _ => true
  exec _ _ := some 0
  appends _ := true

theorem willing_grants (action : Action) (hclass : action.destructiveness ∈
      [.readOnly, .reversible, .persistentModifying, .dataAffecting]) :
    ∃ result trace, (gateApproval willing willingDeps.ctx action none).run [] = .ok result trace ∧
      (action.destructiveness = .readOnly → ∀ e ∈ trace, ¬ TypedConfirm e) := by
  obtain ⟨id, destructiveness, platform, resource, description, report⟩ := action
  simp only [List.mem_cons, List.not_mem_nil, or_false] at hclass
  rcases hclass with rfl | rfl | rfl | rfl
  · refine ⟨_, _, rfl, ?_⟩
    intro _ e he htyped
    rw [List.mem_singleton.mp he] at htyped
    exact htyped.elim
  · exact ⟨_, _, rfl, fun h => Destructiveness.noConfusion h⟩
  · exact ⟨_, _, rfl, fun h => Destructiveness.noConfusion h⟩
  · exact ⟨_, _, rfl, fun h => Destructiveness.noConfusion h⟩

theorem executable_texts (h : Executable proposal command) : ∃ texts, actionTexts proposal = .ok texts := by
  have hok := h.action
  cases htexts : actionTexts proposal with
  | ok texts => exact ⟨texts, rfl⟩
  | error message =>
    rw [htexts] at hok
    cases hok

theorem executable_read (h : Executable proposal command) :
    readProperty proposal (js "unsupported") = .ok (property (js "unsupported") proposal) := by
  obtain ⟨texts, htexts⟩ := executable_texts h
  cases proposal with
  | undefined => cases htexts
  | null => exact absurd rfl h.object
  | _ => rfl

theorem applyGated_ok (h : (gateApproval deps.gate deps.ctx action none).run [] = .ok result trace) :
    applyGated deps proposal action = applyApproved deps proposal trace := by
  rw [applyGated, h]

/-- With nothing in the way, the gate is the only thing that a proposal has to pass. -/
theorem willing_executes (h : raw.bind jsonParse = some proposal) (hexec : Executable proposal command)
    (hclass : destructivenessOf (property (js "destructiveness") proposal) ∈
      [.readOnly, .reversible, .persistentModifying, .dataAffecting]) :
    (property (js "target_host") proposal, command) ∈
        (runAutofixApply willingDeps actionId proposalId raw).executed ∧
      (destructivenessOf (property (js "destructiveness") proposal) = .readOnly →
        ∀ e ∈ (runAutofixApply willingDeps actionId proposalId raw).trace, ¬ TypedConfirm e) := by
  obtain ⟨texts, htexts⟩ := executable_texts hexec
  obtain ⟨result, trace, hgate, hsilent⟩ :=
    willing_grants (buildAction actionId proposalId proposal texts) hclass
  have hsupported : ¬ strictTrue (property (js "unsupported") proposal) = true := by
    rw [hexec.supported]
    exact Bool.false_ne_true
  have hrun : runAutofixApply willingDeps actionId proposalId raw =
      applyApproved willingDeps proposal trace := by
    rw [runAutofixApply, h]
    dsimp only
    rw [executable_read hexec]
    dsimp only
    rw [if_neg hsupported, htexts]
    exact applyGated_ok hgate
  rw [hrun, applyApproved_trace]
  refine ⟨?_, hsilent⟩
  rw [applyApproved, hexec.given]
  cases command with
  | nil => exact absurd rfl hexec.nonempty
  | cons c rest => exact List.mem_singleton_self _

/-! ### The proposals that are safe to apply -/

theorem faithful_confirmed
    (h : ∀ proposal, raw.bind jsonParse = some proposal → FaithfulProposal stored proposal)
    (deps : AutofixDeps) (actionId proposalId : JsString) :
    ExecutesConfirmed stored raw (runAutofixApply deps actionId proposalId raw) := by
  intro x hx
  obtain ⟨proposal, texts, result, hparsed, hexec, hgate⟩ := executed_granted hx
  have hfaithful := h proposal hparsed x.2 hexec
  rcases granted_class rfl hgate with hclass | ⟨hclass, htyped⟩
  · change destructivenessOf (property (js "destructiveness") proposal) = _ at hclass
    rw [hclass] at hfaithful
    exact hfaithful.elim
  · refine ⟨htyped, proposal, hparsed, ?_⟩
    change destructivenessOf (property (js "destructiveness") proposal) ∈ _ at hclass
    simp only [List.mem_cons, List.not_mem_nil, or_false] at hclass
    rcases hclass with hclass | hclass | hclass
    · rwa [hclass] at hfaithful
    · rwa [hclass] at hfaithful
    · rwa [hclass] at hfaithful

/-- Applying a proposal executes only what has been classified and confirmed, whatever the operator does,
exactly where the file still says what `propose` says. -/
theorem executes_confirmed_iff (stored : JsString → Option Observation) (raw : Option JsString) :
    (∀ deps actionId proposalId, ExecutesConfirmed stored raw
      (runAutofixApply deps actionId proposalId raw)) ↔
      ∀ proposal, raw.bind jsonParse = some proposal → FaithfulProposal stored proposal := by
  constructor
  · intro h proposal hparsed command hexec
    have hwilling (hclass : destructivenessOf (property (js "destructiveness") proposal) ∈
        [.readOnly, .reversible, .persistentModifying, .dataAffecting]) :=
      @willing_executes [] [] _ _ _ hparsed hexec hclass
    have hderived (hclass : destructivenessOf (property (js "destructiveness") proposal) ∈
        [.readOnly, .reversible, .persistentModifying, .dataAffecting]) :
        DerivedCommand stored proposal command := by
      obtain ⟨-, proposal', hparsed', hcommand⟩ := h willingDeps [] [] _ (hwilling hclass).1
      cases hparsed.symm.trans hparsed'
      exact hcommand
    cases hclass : destructivenessOf (property (js "destructiveness") proposal) with
    | readOnly =>
      -- the gate lets it pass, and the operator has not been asked
      have hmem := hwilling (hclass ▸ List.mem_cons_self)
      obtain ⟨⟨e, he, htyped⟩, -⟩ := h willingDeps [] [] _ hmem.1
      exact hmem.2 hclass e he htyped
    | reversible => exact hderived (by simp [hclass])
    | persistentModifying => exact hderived (by simp [hclass])
    | dataAffecting => exact hderived (by simp [hclass])
    | architectural => trivial
    | unknown text => trivial
  · exact faithful_confirmed

/-! ### A proposal that has been edited -/

def webCrash : Observation :=
  ⟨js "obs-1", js "nas", js "crash_loop", js "service/web", .p1, js "2026-01-01T00:00:00.000Z", none, none⟩

/-- The proposal to restart the service, made one that only reads and removes a volume -/
def editedProposal : JsValue :=
  .obj [(js "id", .str (js "prop-1")), (js "observation_id", .str (js "obs-1")),
    (js "target_host", .str (js "nas")),
    (js "action_class", .str (js "container.restart")),
    (js "params", .obj [(js "service", .str (js "web")), (js "command", .str (js "docker volume rm data"))]),
    (js "destructiveness", .str (js "read-only")), (js "requires_typed_confirm", .bool true)]

theorem editedProposal_parsed : (some (jsonText editedProposal)).bind jsonParse = some editedProposal := by
  have hzeros : editedProposal.posZero = editedProposal := rfl
  rw [Option.bind_some, jsonParse_jsonText editedProposal (by decide), hzeros]

theorem edited_proposal_unconfirmed : ¬ ∀ (stored : JsString → Option Observation) (raw : Option JsString)
    (deps : AutofixDeps) (actionId proposalId : JsString),
    ExecutesConfirmed stored raw (runAutofixApply deps actionId proposalId raw) := by
  intro h
  have hexec : Executable editedProposal (js "docker volume rm data") := by
    constructor
    · exact fun h => JsValue.noConfusion h
    · decide
    · decide
    · rfl
    · decide
  have hrun := @willing_executes (js "act-1") (js "prop-1") _ _ _ editedProposal_parsed hexec (by decide)
  obtain ⟨⟨e, he, htyped⟩, -⟩ := h (fun _ => some webCrash) _ willingDeps (js "act-1") (js "prop-1") _ hrun.1
  exact hrun.2 rfl e he htyped

/-! ### A proposal that has not been edited -/

theorem classifyRemediation_reversible {obs : Observation} {r : Remediation}
    (h : classifyRemediation obs = some r) : r.destructiveness = .reversible := by
  rw [classifyRemediation] at h
  split_ifs at h
  cases h
  rfl

theorem proposalFor_faithful {id createdAt observationId : JsString} {obs : Observation}
    (h : stored observationId = some obs) :
    FaithfulProposal stored (proposalFor id createdAt observationId obs) := by
  intro command hexec
  obtain ⟨-, hsupported, -, hgiven, -⟩ := hexec
  rw [proposalFor] at hsupported hgiven ⊢
  cases hremediation : classifyRemediation obs with
  | none =>
    rw [hremediation] at hsupported
    cases hsupported
  | some r =>
    have hclass := classifyRemediation_reversible hremediation
    obtain ⟨destructiveness, actionClass, text, service⟩ := r
    cases hclass
    rw [hremediation] at hgiven
    cases hgiven
    exact ⟨obs, _, h, hremediation, rfl⟩

/-- A proposal that is applied as it was proposed executes only what has been classified and confirmed. -/
theorem proposed_confirmed {id createdAt observationId : JsString} {obs : Observation}
    (h : stored observationId = some obs)
    (hraw : raw.bind jsonParse = some (proposalFor id createdAt observationId obs)) :
    ExecutesConfirmed stored raw (runAutofixApply deps actionId proposalId raw) := by
  apply faithful_confirmed
  intro proposal hparsed
  cases hraw.symm.trans hparsed
  exact proposalFor_faithful h

end Homelab
