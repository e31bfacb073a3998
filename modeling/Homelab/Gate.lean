import Homelab.Effect
import Homelab.Host

/-! The approval gate. A run is recorded as the list of what its collaborators were asked
and what they answered; every answer may depend on all that happened before. -/
namespace Homelab
open Js Effect

/-- The classes of actions; a value outside the type falls through the switch. -/
inductive Destructiveness
  | readOnly
  | reversible
  | persistentModifying
  | dataAffecting
  | architectural
  | unknown (text : JsString)
deriving DecidableEq

def Destructiveness.text : Destructiveness → JsString
  | .readOnly => js "read-only"
  | .reversible => js "reversible"
  | .persistentModifying => js "persistent-modifying"
  | .dataAffecting => js "data-affecting"
  | .architectural => js "architectural"
  | .unknown text => text

/-- An action, as far as the gate reads it. -/
structure Action where
  id : JsString
  destructiveness : Destructiveness
  platform : JsString
  resource : JsString
  description : JsString
  dryRunReport : Option JsString

inductive AuditType
  | allowed
  | denied
  | bypass
deriving DecidableEq

structure SafetyAuditEvent where
  type : AuditType
  actionId : JsString
  reason : JsString
  occurredAt : JsString
deriving DecidableEq

structure ApprovalResult where
  actionId : JsString
  approvedAt : JsString
  approvedBy : JsString
deriving DecidableEq

/-- `ApprovalDeniedError`, an `Error` of the gate's own, or what a collaborator throws. -/
inductive GateError
  | denied (actionId reason : JsString)
  | error (message : JsString)
  | thrown (value : JsValue)

structure GateMetricsHook where
  actionType : JsString
  operatorId : JsString

inductive MetricEvent
  | gateLatency (actionType destructiveness : JsString)
  | bypassAttempt (operator reason : JsString)

/-! ### The typed confirmation -/

structure TypedConfirmInput where
  message : JsString
  ttlSeconds : JsNumber
  expectedWord : Option JsString
  operatorId : Option JsString

/-- A callback of the prompt: a line was typed, or the prompt failed. -/
inductive PromptCallback
  | line (answer : JsString)
  | failed
deriving DecidableEq

/-- The callbacks of the prompt that come before the timer's and those after it. -/
structure Race where
  early : List PromptCallback
  late : List PromptCallback

/-- `settle`: only the first call counts. -/
def settle (v : Bool) : Option Bool → Option Bool
  | none => some v
  | some w => some w

def onCallback (expected : JsString) (settled : Option Bool) : PromptCallback → Option Bool
  | .line answer => settle (answer == expected) settled
  | .failed => settle false settled

/-- What the modal is settled to once all its callbacks have run. -/
def modalSettled (expected : JsString) (race : Race) : Option Bool :=
  race.late.foldl (onCallback expected) (settle false (race.early.foldl (onCallback expected) none))

theorem foldl_settled (expected : JsString) (callbacks : List PromptCallback) (v : Bool) :
    callbacks.foldl (onCallback expected) (some v) = some v := by
  induction callbacks with
  | nil => rfl
  | cons callback rest ih =>
    cases callback with
    | line => exact ih
    | failed => exact ih

/-- The modal answers yes exactly when the first callback is the line it expects. -/
theorem modalSettled_iff (expected : JsString) (race : Race) :
    modalSettled expected race = some true ↔ race.early.head? = some (.line expected) := by
  unfold modalSettled
  cases hearly : race.early with
  | nil => simp [settle, foldl_settled]
  | cons callback rest =>
    cases callback with
    | failed => simp [onCallback, settle, foldl_settled]
    | line answer => simp [onCallback, settle, foldl_settled]

/-! ### Collaborators -/

/-- What the gate asked and what came of it; `none` is a call that returned. -/
inductive GateEvent
  | audited (event : SafetyAuditEvent) (thrown : Option JsValue)
  | askedAdmin (answer : Except JsValue Bool)
  | verifiedBackup (platform target : JsString) (thrown : Option JsValue)
  | delayed (actionId dryRunReport : JsString) (delayMs : ℕ) (thrown : Option JsValue)
  | modal (input : TypedConfirmInput) (race : Race)

abbrev GateTrace := List GateEvent

/-- `GateContext` -/
structure GateContext where
  typedConfirmTtlSeconds : Option JsNumber
  skipBackupCheck : Option Bool
  isAdmin : GateTrace → Except JsValue Bool
  audit : GateTrace → SafetyAuditEvent → Option JsValue

/-- What the gate imports: the prompt with its timer, the backup check, the delay, the
clock, and the metrics, where only a throwing logger gets through. -/
structure Collaborators where
  race : GateTrace → TypedConfirmInput → Race
  verifyBackup : GateTrace → (platform target : JsString) → Option JsValue
  scheduleDelayedAction : GateTrace → (actionId dryRunReport : JsString) → ℕ → Option JsValue
  now : GateTrace → JsString
  emit : GateTrace → MetricEvent → Option JsValue

abbrev Gate := EStateM GateError GateTrace

def throwIf : Option JsValue → Gate Unit
  | none => pure ()
  | some value => throw (.thrown value)

def giveOrThrow : Except JsValue Bool → Gate Bool
  | .ok answer => pure answer
  | .error value => throw (.thrown value)

section

variable (c : Collaborators) (ctx : GateContext)

def audit (event : SafetyAuditEvent) : Gate Unit := do
  let trace ← get
  let thrown := ctx.audit trace event
  set (trace ++ [.audited event thrown])
  throwIf thrown

def isAdmin : Gate Bool := do
  let trace ← get
  let answer := ctx.isAdmin trace
  set (trace ++ [.askedAdmin answer])
  giveOrThrow answer

def verifyBackupFor (action : Action) : Gate Unit := do
  let trace ← get
  let thrown := c.verifyBackup trace action.platform action.resource
  set (trace ++ [.verifiedBackup action.platform action.resource thrown])
  throwIf thrown

def scheduleDelayedAction (actionId dryRunReport : JsString) (delayMs : ℕ) : Gate Unit := do
  let trace ← get
  let thrown := c.scheduleDelayedAction trace actionId dryRunReport delayMs
  set (trace ++ [.delayed actionId dryRunReport delayMs thrown])
  throwIf thrown

def typedConfirmModal (input : TypedConfirmInput) : Gate Bool := do
  let trace ← get
  let race := c.race trace input
  set (trace ++ [.modal input race])
  pure ((modalSettled (input.expectedWord.getD (js "CONFIRM")) race).getD false)

def now : Gate JsString := do
  let trace ← get
  pure (c.now trace)

def emitMetric (event : MetricEvent) : Gate Unit := do
  let trace ← get
  throwIf (c.emit trace event)

/-! ### `gateApproval` -/

def oneDayMs : ℕ := 24*60*60*1000

def passThroughReadOnly (action : Action) : Gate ApprovalResult := do
  let ts ← now c
  audit ctx ⟨.allowed, action.id, js "read-only pass-through", ts⟩
  pure ⟨action.id, ts, js "system"⟩

/-- The end that the three operator approvals share. -/
def confirmAndAllow (action : Action) (input : TypedConfirmInput)
    (deniedReason rejection allowedReason : JsString) : Gate ApprovalResult := do
  let confirmed ← typedConfirmModal c input
  let ts ← now c
  if confirmed then do
    audit ctx ⟨.allowed, action.id, allowedReason, ts⟩
    pure ⟨action.id, ts, js "operator"⟩
  else do
    audit ctx ⟨.denied, action.id, deniedReason, ts⟩
    throw (.denied action.id rejection)

def ttlSeconds : JsNumber := ctx.typedConfirmTtlSeconds.getD (.ofNat 60)

def requestStandardApproval (action : Action) : Gate ApprovalResult :=
  confirmAndAllow c ctx action
    ⟨js "Confirm " ++ action.destructiveness.text ++ js " action: " ++ action.description,
      ttlSeconds ctx, none, none⟩
    (js "typed-CONFIRM rejected or timed out") (js "typed-CONFIRM rejected")
    (action.destructiveness.text ++ js " approved via typed-CONFIRM")

def recordMissingAdmin : Option GateMetricsHook → Gate Unit
  | none => pure ()
  | some m => emitMetric c (.bypassAttempt m.operatorId (js "missing-admin"))

def runBackupCheck (action : Action) (metrics : Option GateMetricsHook) : Gate Unit :=
  if ctx.skipBackupCheck = some true then do
    let admin ← isAdmin ctx
    if admin then do
      let ts ← now c
      audit ctx ⟨.bypass, action.id, js "admin used --skip-backup-check", ts⟩
    else do
      recordMissingAdmin c metrics
      throw (.denied action.id (js "--skip-backup-check requires admin role"))
  else verifyBackupFor c action

def requestDataAffectingApproval (action : Action) (metrics : Option GateMetricsHook) :
    Gate ApprovalResult := do
  runBackupCheck c ctx action metrics
  confirmAndAllow c ctx action
    ⟨js "Confirm " ++ action.destructiveness.text ++ js " action: " ++ action.description,
      ttlSeconds ctx, none, metrics.map GateMetricsHook.operatorId⟩
    (js "typed-CONFIRM rejected or timed out") (js "typed-CONFIRM rejected")
    (js "data-affecting approved via typed-CONFIRM")

/-- `requestArchitecturalApproval` with its report. -/
def approveArchitectural (action : Action) (metrics : Option GateMetricsHook)
    (dryRunReport : JsString) : Gate ApprovalResult := do
  runBackupCheck c ctx action metrics
  scheduleDelayedAction c action.id dryRunReport oneDayMs
  confirmAndAllow c ctx action
    ⟨js "Confirm architectural action after 24h delay: " ++ action.description,
      ttlSeconds ctx, none, metrics.map GateMetricsHook.operatorId⟩
    (js "architectural typed-CONFIRM rejected") (js "typed-CONFIRM rejected after delay")
    (js "architectural approved after 24h delay + typed-CONFIRM")

def requestArchitecturalApproval (action : Action) (metrics : Option GateMetricsHook) :
    Gate ApprovalResult :=
  if action.dryRunReport.getD [] = [] then
    throw (.error (js "architectural action " ++ action.id ++ js " missing required dryRunReport"))
  else approveArchitectural c ctx action metrics (action.dryRunReport.getD [])

def routeApproval (action : Action) (metrics : Option GateMetricsHook) : Gate ApprovalResult :=
  match action.destructiveness with
  | .readOnly => passThroughReadOnly c ctx action
  | .reversible => requestStandardApproval c ctx action
  | .persistentModifying => requestStandardApproval c ctx action
  | .dataAffecting => requestDataAffectingApproval c ctx action metrics
  | .architectural => requestArchitecturalApproval c ctx action metrics
  | .unknown text => throw (.error (js "Unknown destructiveness: " ++ text))

def emitLatency (action : Action) : Option GateMetricsHook → Gate Unit
  | none => pure ()
  | some m => emitMetric c (.gateLatency m.actionType action.destructiveness.text)

def gateApproval (action : Action) (metrics : Option GateMetricsHook) : Gate ApprovalResult :=
  ensuring (routeApproval c ctx action metrics) (emitLatency c action metrics)

end

end Homelab
