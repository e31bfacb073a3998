import Homelab.EnumerationCalls
import Homelab.GateTrace
import Homelab.JsonParse
import Homelab.DriftObservation

/-! Autofixes: what is proposed for an observation, and what `autofix apply` runs of a proposal that it
finds on disk. -/
namespace Homelab
open Js Effect

/-! ### Remediations -/

structure Remediation where
  destructiveness : Destructiveness
  actionClass : JsString
  command : JsString
  service : JsString

def classifyRemediation (obs : Observation) : Option Remediation :=
  if obs.pattern = js "crash_loop" ∧ js "service/" <+: obs.resource then
    let serviceName := obs.resource.drop (js "service/").length
    some ⟨.reversible, js "container.restart", js "docker service update --force " ++ serviceName,
      serviceName⟩
  else none

def destructivenessToLadder : Destructiveness → JsString
  | .readOnly => js "L3"
  | .reversible => js "L1"
  | _ => js "L0"

/-- The proposal that `runAutofixPropose` writes, with its random id and its date -/
def proposalFor (id createdAt observationId : JsString) (obs : Observation) : JsValue :=
  match classifyRemediation obs with
  | none => .obj [(js "id", .str id), (js "created_at", .str createdAt),
      (js "observation_id", .str observationId), (js "target_host", .str obs.platform),
      (js "action_class", .str (js "noop")), (js "params", .obj [(js "pattern", .str obs.pattern)]),
      (js "destructiveness", .str Destructiveness.readOnly.text), (js "ladder_level", .str (js "L3")),
      (js "requires_typed_confirm", .bool false), (js "delay_hours", .num (.ofNat 0)),
      (js "notes", .str (js "No safe auto-remediation for pattern '" ++ obs.pattern ++ js "' on platform '" ++
        obs.platform ++ js "'.")), (js "unsupported", .bool true)]
  | some r => .obj [(js "id", .str id), (js "created_at", .str createdAt),
      (js "observation_id", .str observationId), (js "target_host", .str obs.platform),
      (js "action_class", .str r.actionClass),
      (js "params", .obj [(js "service", .str r.service), (js "command", .str r.command)]),
      (js "destructiveness", .str r.destructiveness.text),
      (js "ladder_level", .str (destructivenessToLadder r.destructiveness)),
      (js "requires_typed_confirm", .bool true), (js "delay_hours", .num (.ofNat 0)),
      (js "notes", .str (js "Auto-remediation for '" ++ obs.pattern ++ js "' on '" ++ obs.resource ++
        js "'."))]

/-! ### Applying a proposal -/

def strictTrue : JsValue → Bool
  | .bool b => b
  | _ => false

/-- The switch of the gate on a value of JSON -/
def destructivenessOf : JsValue → Destructiveness
  | .str text =>
    if text = js "read-only" then .readOnly
    else if text = js "reversible" then .reversible
    else if text = js "persistent-modifying" then .persistentModifying
    else if text = js "data-affecting" then .dataAffecting
    else if text = js "architectural" then .architectural
    else .unknown text
  | v => .unknown v.coerce

/-- The texts of a proposal that its action is made of -/
structure ActionTexts where
  resource : JsString
  actionClass : JsString
  platform : JsString
  service : JsString

/-- The code throws where the proposal has no `params`, or something in it cannot be made a text. -/
def actionTexts (proposal : JsValue) : Except JsString ActionTexts := do
  let service ← readProperty (property (js "params") proposal) (js "service")
  let host := property (js "target_host") proposal
  let resource ← inTemplate (nullish service host)
  let actionClass ← inTemplate (property (js "action_class") proposal)
  let platform ← inTemplate host
  let shown ← inTemplate (nullish service (.str []))
  return ⟨resource, actionClass, platform, shown⟩

def buildAction (actionId proposalId : JsString) (proposal : JsValue) (texts : ActionTexts) : Action where
  id := actionId
  destructiveness := destructivenessOf (property (js "destructiveness") proposal)
  platform := texts.platform
  resource := texts.resource
  description := js "Autofix: " ++ texts.actionClass ++ js " on " ++ texts.platform ++ js "/" ++
    texts.service ++
    js " (proposal " ++ proposalId ++ js ")"
  dryRunReport := none

/-- `String(proposal.params['command'] ?? '')` -/
def remediationCommand (proposal : JsValue) : Except JsString JsString := do
  let command ← readProperty (property (js "params") proposal) (js "command")
  inTemplate (nullish command (.str []))

/-- What a run of `apply` is given: the gate, the factory of connections, which may be missing and may
fail, the exit code of a command that is answered, and whether an entry of the audit log is written. -/
structure AutofixDeps where
  gate : Collaborators
  typedConfirmTtlSeconds : Option JsNumber
  isAdmin : GateTrace → Except JsValue Bool
  audit : GateTrace → SafetyAuditEvent → Option JsValue
  getConnection : Option (JsValue → Bool)
  exec : JsValue → JsString → Option ℤ
  appends : JsString → Bool

/-- The context of the gate, without flags -/
def AutofixDeps.ctx (deps : AutofixDeps) : GateContext :=
  ⟨deps.typedConfirmTtlSeconds, none, deps.isAdmin, deps.audit⟩

/-- What the gate was asked, what was executed where, and the exit code of a run that does not throw -/
structure ApplyRun where
  trace : GateTrace
  executed : List (JsValue × JsString)
  exit : Option ℕ

/-- The end of a run in which something has failed -/
def AutofixDeps.failed (deps : AutofixDeps) : Option ℕ := if deps.appends (js "error") then some 1 else none

def AutofixDeps.exitOf (deps : AutofixDeps) (host : JsValue) (command : JsString) : Option ℕ :=
  match deps.exec host command with
  | none => deps.failed
  | some code =>
    if deps.appends (js "applied") then some (if code = 0 then 0 else 1) else deps.failed

/-- Step 6 of `apply` -/
def applyApproved (deps : AutofixDeps) (proposal : JsValue) (trace : GateTrace) : ApplyRun :=
  match remediationCommand proposal, deps.getConnection with
  | .error _, _ => ⟨trace, [], deps.failed⟩
  | .ok [], _ => ⟨trace, [], some 1⟩
  | .ok _, none => ⟨trace, [], some 1⟩
  | .ok command, some connects =>
    let host := property (js "target_host") proposal
    if connects host then ⟨trace, [(host, command)], deps.exitOf host command⟩
    else ⟨trace, [], deps.failed⟩

/-- Steps 5 to 7 of `apply` -/
def applyGated (deps : AutofixDeps) (proposal : JsValue) (action : Action) : ApplyRun :=
  match (gateApproval deps.gate deps.ctx action none).run [] with
  | .ok _ trace => applyApproved deps proposal trace
  | .error (.denied _ _) trace => ⟨trace, [], some 1⟩
  | .error _ trace => ⟨trace, [], deps.failed⟩

/-- `runAutofixApply`, from the text of the proposal's file -/
def runAutofixApply (deps : AutofixDeps) (actionId proposalId : JsString)
    (raw : Option JsString) : ApplyRun :=
  match raw.bind jsonParse with
  | none => ⟨[], [], some 1⟩
  | some proposal =>
    match readProperty proposal (js "unsupported") with
    | .error _ => ⟨[], [], none⟩
    | .ok unsupported =>
      if strictTrue unsupported then
        ⟨[], [], if (readProperty (property (js "params") proposal) (js "pattern")).isOk then
          some 1 else none⟩
      else
        match actionTexts proposal with
        | .error _ => ⟨[], [], none⟩
        | .ok texts => applyGated deps proposal (buildAction actionId proposalId proposal texts)

/-! ### What may be executed -/

/-- The prompt has heard the word before its timer. -/
def TypedConfirm : GateEvent → Prop
  | .modal _ race => race.early.head? = some (.line (js "CONFIRM"))
  | _ => False

/-- The command is the one for the observation that the proposal refers to. -/
def DerivedCommand (stored : JsString → Option Observation) (proposal : JsValue)
    (command : JsString) : Prop :=
  ∃ obs r, stored (property (js "observation_id") proposal).coerce = some obs ∧
    classifyRemediation obs = some r ∧ r.command = command

/-- Nothing is executed but what has been classified, and only once the operator has confirmed it. -/
def ExecutesConfirmed (stored : JsString → Option Observation) (raw : Option JsString)
    (run : ApplyRun) : Prop :=
  ∀ x ∈ run.executed, (∃ e ∈ run.trace, TypedConfirm e) ∧
    ∃ proposal, raw.bind jsonParse = some proposal ∧ DerivedCommand stored proposal x.2

/-- The proposal is one of the supported kind, its action can be built and it has a command. -/
structure Executable (proposal : JsValue) (command : JsString) : Prop where
  object : proposal ≠ .null
  supported : strictTrue (property (js "unsupported") proposal) = false
  action : (actionTexts proposal).isOk = true
  given : remediationCommand proposal = .ok command
  nonempty : command ≠ []

/-- A proposal that can be executed is of a class that the gate asks the operator about, and its command
is the one for its observation; or it is of a class that the gate never grants it. -/
def FaithfulProposal (stored : JsString → Option Observation) (proposal : JsValue) : Prop :=
  ∀ command, Executable proposal command →
    match destructivenessOf (property (js "destructiveness") proposal) with
    | .readOnly => False
    | .architectural => True
    | .unknown _ => True
    | _ => DerivedCommand stored proposal command

/-! ### Runs that execute something -/

variable {deps : AutofixDeps} {actionId proposalId : JsString} {raw : Option JsString} {proposal : JsValue}
  {stored : JsString → Option Observation} {x : JsValue × JsString} {trace : GateTrace} {action : Action}
  {command : JsString}

theorem applyApproved_trace (deps : AutofixDeps) (proposal : JsValue) (trace : GateTrace) :
    (applyApproved deps proposal trace).trace = trace := by
  rw [applyApproved]
  split <;> first | rfl | (dsimp only; split_ifs <;> rfl)

theorem applyApproved_executes (h : x ∈ (applyApproved deps proposal trace).executed) :
    remediationCommand proposal = .ok x.2 ∧ x.2 ≠ [] := by
  rw [applyApproved] at h
  cases hcommand : remediationCommand proposal with
  | error message =>
    rw [hcommand] at h
    cases h
  | ok command =>
    rw [hcommand] at h
    cases command with
    | nil => cases h
    | cons c rest =>
      cases hconnection : deps.getConnection with
      | none =>
        rw [hconnection] at h
        cases h
      | some connects =>
        rw [hconnection] at h
        dsimp only at h
        split_ifs at h
        · rw [List.mem_singleton.mp h]
          exact ⟨rfl, List.cons_ne_nil _ _⟩
        · cases h

theorem applyGated_executes (h : x ∈ (applyGated deps proposal action).executed) :
    remediationCommand proposal = .ok x.2 ∧ x.2 ≠ [] ∧ ∃ result,
      (gateApproval deps.gate deps.ctx action none).run [] =
        .ok result (applyGated deps proposal action).trace := by
  rw [applyGated] at h ⊢
  cases hgate : (gateApproval deps.gate deps.ctx action none).run [] with
  | error e trace =>
    rw [hgate] at h
    cases e <;> cases h
  | ok result trace =>
    rw [hgate] at h
    obtain ⟨hcommand, hne⟩ := applyApproved_executes h
    refine ⟨hcommand, hne, result, ?_⟩
    dsimp only
    rw [applyApproved_trace]

theorem property_of_read {v w : JsValue} {k : JsString} (h : readProperty v k = .ok w) :
    property k v = w := by
  rw [readProperty] at h
  rw [property]
  cases hget : v.get? k with
  | none =>
    rw [hget] at h
    cases h
  | some u =>
    rw [hget] at h
    cases h
    rfl

/-- What a run executes is the command of a proposal that the gate has granted. -/
theorem executed_granted (h : x ∈ (runAutofixApply deps actionId proposalId raw).executed) :
    ∃ proposal texts result, raw.bind jsonParse = some proposal ∧ Executable proposal x.2 ∧
      (gateApproval deps.gate deps.ctx (buildAction actionId proposalId proposal texts) none).run [] =
        .ok result (runAutofixApply deps actionId proposalId raw).trace := by
  rw [runAutofixApply] at h ⊢
  cases hparsed : raw.bind jsonParse with
  | none =>
    rw [hparsed] at h
    cases h
  | some proposal =>
    rw [hparsed] at h
    dsimp only at h ⊢
    cases hread : readProperty proposal (js "unsupported") with
    | error message =>
      rw [hread] at h
      cases h
    | ok unsupported =>
      rw [hread] at h
      dsimp only at h ⊢
      by_cases htrue : strictTrue unsupported = true
      · rw [if_pos htrue] at h
        cases h
      · rw [if_neg htrue] at h ⊢
        cases htexts : actionTexts proposal with
        | error message =>
          rw [htexts] at h
          cases h
        | ok texts =>
          rw [htexts] at h
          obtain ⟨hcommand, hne, result, hgate⟩ := applyGated_executes h
          refine ⟨proposal, texts, result, rfl, ⟨?_, ?_, ?_, hcommand, hne⟩, hgate⟩
          · rintro rfl
            cases hread
          · rw [property_of_read hread]
            exact Bool.eq_false_iff.mpr htrue
          · rw [htexts]
            rfl

end Homelab
