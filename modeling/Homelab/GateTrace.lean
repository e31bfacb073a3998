import Homelab.Gate

/-! What the gate grants, over all answers of its collaborators. -/
namespace Homelab
open Js Effect

/-- A `gate.allowed` entry is handed to the audit, whether or not it is taken. -/
def IsGrant : GateEvent → Prop
  | .audited event _ => event.type = .allowed
  | _ => False

/-- A call of a collaborator that threw. -/
def Threw : GateEvent → Prop
  | .audited _ thrown => thrown ≠ none
  | .askedAdmin (.error _) => True
  | .askedAdmin (.ok _) => False
  | .verifiedBackup _ _ thrown => thrown ≠ none
  | .delayed _ _ _ thrown => thrown ≠ none
  | .modal _ _ => False

def NoGrant (trace : GateTrace) : Prop := ∀ e ∈ trace, ¬IsGrant e

/-- The expected word was the first thing that the modal heard, before its timer. -/
def Confirmed : GateEvent → Prop
  | .modal input race =>
    race.early.head? = some (.line (input.expectedWord.getD (js "CONFIRM")))
  | _ => False

/-- The backup of the target was verified, or an admin's bypass was audited. -/
def BackupShown (action : Action) (ctx : GateContext) (trace : GateTrace) : Prop :=
  ctx.skipBackupCheck ≠ some true ∧
      trace = [.verifiedBackup action.platform action.resource none] ∨
    ctx.skipBackupCheck = some true ∧
      ∃ event, event.type = .bypass ∧ event.actionId = action.id ∧
        trace = [.askedAdmin (.ok true), .audited event none]

/-- Everything that the class of the action requires before it is allowed, in order. -/
def Evidence (action : Action) (ctx : GateContext) (trace : GateTrace) : Prop :=
  match action.destructiveness with
  | .readOnly => trace = []
  | .reversible => ∃ c, Confirmed c ∧ trace = [c]
  | .persistentModifying => ∃ c, Confirmed c ∧ trace = [c]
  | .dataAffecting => ∃ shown c, BackupShown action ctx shown ∧ Confirmed c ∧ trace = shown ++ [c]
  | .architectural => ∃ report shown c, action.dryRunReport = some report ∧ report ≠ [] ∧
      BackupShown action ctx shown ∧ Confirmed c ∧
      trace = shown ++ [.delayed action.id report (24*60*60*1000) none, c]
  | .unknown _ => False

section Classes

variable {action : Action} {ctx : GateContext} {trace : GateTrace}

theorem evidence_standard
    (h : action.destructiveness = .reversible ∨ action.destructiveness = .persistentModifying) :
    Evidence action ctx trace ↔ ∃ c, Confirmed c ∧ trace = [c] := by
  rcases h with h | h <;> rw [Evidence, h]

theorem evidence_dataAffecting (h : action.destructiveness = .dataAffecting) :
    Evidence action ctx trace ↔
      ∃ shown c, BackupShown action ctx shown ∧ Confirmed c ∧ trace = shown ++ [c] := by
  rw [Evidence, h]

theorem evidence_architectural (h : action.destructiveness = .architectural) :
    Evidence action ctx trace ↔
      ∃ report shown c, action.dryRunReport = some report ∧ report ≠ [] ∧
        BackupShown action ctx shown ∧ Confirmed c ∧
        trace = shown ++ [.delayed action.id report (24*60*60*1000) none, c] := by
  rw [Evidence, h]

end Classes

/-- How a run ends: allowed on evidence, refused without a word to the audit, or allowed
on evidence with a throw at the audit or after it. -/
inductive GateOutcome (E : GateTrace → Prop) : EStateM.Result GateError GateTrace ApprovalResult → Prop
  | allowed (result : ApprovalResult) (before : GateTrace) (event : SafetyAuditEvent)
      (h : E before) (ht : event.type = .allowed) :
      GateOutcome E (.ok result (before ++ [.audited event none]))
  | refused (e : GateError) (trace : GateTrace) (h : NoGrant trace) :
      GateOutcome E (.error e trace)
  | failed (e : GateError) (before : GateTrace) (grant : GateEvent) (h : E before)
      (hg : IsGrant grant) : GateOutcome E (.error e (before ++ [grant]))

theorem NoGrant.append {a b : GateTrace} (ha : NoGrant a) (hb : NoGrant b) : NoGrant (a ++ b) := by
  intro e he
  rcases List.mem_append.mp he with h | h
  · exact ha e h
  · exact hb e h

theorem NoGrant.single {e : GateEvent} (he : ¬IsGrant e) : NoGrant [e] := by
  intro e' he'
  rw [List.mem_singleton.mp he']
  exact he

section

variable (c : Collaborators) (ctx : GateContext) {E : GateTrace → Prop}

theorem audit_run (event : SafetyAuditEvent) (trace : GateTrace) :
    (audit ctx event).run trace =
      (throwIf (ctx.audit trace event)).run (trace ++ [.audited event (ctx.audit trace event)]) := rfl

/-- On evidence, the entry and the result after it make an outcome. -/
theorem allow_outcome {event : SafetyAuditEvent} {trace : GateTrace} (result : ApprovalResult)
    (ht : event.type = .allowed) (hE : E trace) :
    GateOutcome E ((do audit ctx event; pure result : Gate ApprovalResult).run trace) := by
  cases ha : ctx.audit trace event with
  | none =>
    have hrun : (audit ctx event).run trace = .ok () (trace ++ [.audited event none]) := by
      rw [audit_run, ha]
      rfl
    rw [run_bind_ok hrun]
    exact .allowed result trace event hE ht
  | some value =>
    have hrun : (audit ctx event).run trace =
        .error (.thrown value) (trace ++ [.audited event (some value)]) := by
      rw [audit_run, ha]
      rfl
    rw [run_bind_error hrun]
    exact .failed _ trace _ hE ht

theorem deny_outcome {event : SafetyAuditEvent} {trace : GateTrace} (e : GateError)
    (ht : event.type ≠ .allowed) (hno : NoGrant trace) :
    GateOutcome E ((do audit ctx event; throw e : Gate ApprovalResult).run trace) := by
  have hno' (thrown : Option JsValue) : NoGrant (trace ++ [.audited event thrown]) :=
    hno.append (.single ht)
  cases ha : ctx.audit trace event with
  | none =>
    have hrun : (audit ctx event).run trace = .ok () (trace ++ [.audited event none]) := by
      rw [audit_run, ha]
      rfl
    rw [run_bind_ok hrun]
    exact .refused e _ (hno' none)
  | some value =>
    have hrun : (audit ctx event).run trace =
        .error (.thrown value) (trace ++ [.audited event (some value)]) := by
      rw [audit_run, ha]
      rfl
    rw [run_bind_error hrun]
    exact .refused _ _ (hno' (some value))

/-- The modal answers yes only if the expected word came first. -/
theorem confirmAndAllow_outcome {trace : GateTrace} (action : Action) (input : TypedConfirmInput)
    (deniedReason rejection allowedReason : JsString) (hno : NoGrant trace)
    (hE : ∀ race, Confirmed (.modal input race) → E (trace ++ [.modal input race])) :
    GateOutcome E
      ((confirmAndAllow c ctx action input deniedReason rejection allowedReason).run trace) := by
  have hmodal : (typedConfirmModal c input).run trace = .ok
      ((modalSettled (input.expectedWord.getD (js "CONFIRM")) (c.race trace input)).getD false)
      (trace ++ [.modal input (c.race trace input)]) := rfl
  have hnow (t : GateTrace) : (now c).run t = .ok (c.now t) t := rfl
  rw [confirmAndAllow, run_bind_ok hmodal, run_bind_ok (hnow _)]
  cases hs : modalSettled (input.expectedWord.getD (js "CONFIRM")) (c.race trace input) with
  | none => exact deny_outcome ctx _ (fun h => nomatch h) (hno.append (.single id))
  | some confirmed =>
    cases confirmed with
    | false => exact deny_outcome ctx _ (fun h => nomatch h) (hno.append (.single id))
    | true => exact allow_outcome ctx _ rfl (hE _ ((modalSettled_iff _ _).mp hs))

theorem passThroughReadOnly_outcome (action : Action) (hE : E []) :
    GateOutcome E ((passThroughReadOnly c ctx action).run []) := by
  have hnow (t : GateTrace) : (now c).run t = .ok (c.now t) t := rfl
  rw [passThroughReadOnly, run_bind_ok (hnow _)]
  exact allow_outcome ctx _ rfl hE

/-- The backup check ends with its evidence, or throws without a grant. -/
theorem runBackupCheck_run (action : Action) (metrics : Option GateMetricsHook) :
    (∃ shown, (runBackupCheck c ctx action metrics).run [] = .ok () shown ∧
      BackupShown action ctx shown ∧ NoGrant shown) ∨
    ∃ e trace, (runBackupCheck c ctx action metrics).run [] = .error e trace ∧ NoGrant trace := by
  rw [runBackupCheck]
  split_ifs with hskip
  · have hadmin : (isAdmin ctx).run [] = (giveOrThrow (ctx.isAdmin [])).run
        [.askedAdmin (ctx.isAdmin [])] := rfl
    cases hanswer : ctx.isAdmin [] with
    | error value =>
      rw [hanswer] at hadmin
      exact Or.inr ⟨_, _, run_bind_error hadmin _, .single id⟩
    | ok admin =>
      rw [hanswer] at hadmin
      have hno : NoGrant [.askedAdmin (.ok admin)] := .single id
      cases admin with
      | true =>
        have hnow (t : GateTrace) : (now c).run t = .ok (c.now t) t := rfl
        rw [run_bind_ok hadmin, if_pos rfl, run_bind_ok (hnow _), audit_run]
        have hno' (event : SafetyAuditEvent) (thrown : Option JsValue) (ht : event.type = .bypass) :
            NoGrant [.askedAdmin (.ok true), .audited event thrown] :=
          hno.append (.single fun h => nomatch ht.symm.trans h)
        cases ctx.audit [.askedAdmin (.ok true)] ⟨.bypass, action.id,
            js "admin used --skip-backup-check", c.now [.askedAdmin (.ok true)]⟩ with
        | none => exact Or.inl ⟨_, rfl, Or.inr ⟨hskip, _, rfl, rfl, rfl⟩, hno' _ _ rfl⟩
        | some value => exact Or.inr ⟨_, _, rfl, hno' _ _ rfl⟩
      -- whatever the metrics hook does, the check throws
      | false =>
        right
        rw [run_bind_ok hadmin, if_neg Bool.false_ne_true]
        cases metrics with
        | none => exact ⟨_, _, rfl, hno⟩
        | some m =>
          have hemit : (recordMissingAdmin c (some m)).run [.askedAdmin (.ok false)] =
              (throwIf (c.emit [.askedAdmin (.ok false)]
                (.bypassAttempt m.operatorId (js "missing-admin")))).run [.askedAdmin (.ok false)] := rfl
          cases hc : c.emit [.askedAdmin (.ok false)] (.bypassAttempt m.operatorId (js "missing-admin")) with
          | none =>
            rw [hc] at hemit
            exact ⟨_, _, run_bind_ok hemit _, hno⟩
          | some value =>
            rw [hc] at hemit
            exact ⟨_, _, run_bind_error hemit _, hno⟩
  · have hverify : (verifyBackupFor c action).run [] =
        (throwIf (c.verifyBackup [] action.platform action.resource)).run
          [.verifiedBackup action.platform action.resource
            (c.verifyBackup [] action.platform action.resource)] := rfl
    rw [hverify]
    cases c.verifyBackup [] action.platform action.resource with
    | none => exact Or.inl ⟨_, rfl, Or.inl ⟨hskip, rfl⟩, .single id⟩
    | some value => exact Or.inr ⟨_, _, rfl, .single id⟩

variable {action : Action} (metrics : Option GateMetricsHook)

theorem requestStandardApproval_outcome
    (hclass : action.destructiveness = .reversible ∨ action.destructiveness = .persistentModifying) :
    GateOutcome (Evidence action ctx) ((requestStandardApproval c ctx action).run []) := by
  apply confirmAndAllow_outcome
  · exact fun _ h => nomatch h
  · intro race hconfirmed
    exact (evidence_standard hclass).mpr ⟨_, hconfirmed, rfl⟩

theorem requestDataAffectingApproval_outcome (hclass : action.destructiveness = .dataAffecting) :
    GateOutcome (Evidence action ctx) ((requestDataAffectingApproval c ctx action metrics).run []) := by
  obtain ⟨shown, hrun, hshown, hno⟩ | ⟨e, trace, hrun, hno⟩ := runBackupCheck_run c ctx action metrics
  · rw [requestDataAffectingApproval, run_bind_ok hrun]
    apply confirmAndAllow_outcome c ctx action _ _ _ _ hno
    intro race hconfirmed
    exact (evidence_dataAffecting hclass).mpr ⟨shown, _, hshown, hconfirmed, rfl⟩
  · rw [requestDataAffectingApproval, run_bind_error hrun]
    exact .refused e trace hno

theorem approveArchitectural_outcome {report : JsString} (hclass : action.destructiveness = .architectural)
    (hreport : action.dryRunReport = some report) (hne : report ≠ []) :
    GateOutcome (Evidence action ctx) ((approveArchitectural c ctx action metrics report).run []) := by
  obtain ⟨shown, hrun, hshown, hno⟩ | ⟨e, trace, hrun, hno⟩ := runBackupCheck_run c ctx action metrics
  · rw [approveArchitectural, run_bind_ok hrun]
    have hdelay : (scheduleDelayedAction c action.id report oneDayMs).run shown =
        (throwIf (c.scheduleDelayedAction shown action.id report oneDayMs)).run
          (shown ++ [.delayed action.id report oneDayMs
            (c.scheduleDelayedAction shown action.id report oneDayMs)]) := rfl
    cases hs : c.scheduleDelayedAction shown action.id report oneDayMs with
    | some value =>
      rw [hs] at hdelay
      rw [run_bind_error hdelay]
      exact .refused _ _ (hno.append (.single id))
    | none =>
      rw [hs] at hdelay
      rw [run_bind_ok hdelay]
      apply confirmAndAllow_outcome c ctx action _ _ _ _ (hno.append (.single id))
      intro race hconfirmed
      apply (evidence_architectural hclass).mpr
      exact ⟨report, shown, _, hreport, hne, hshown, hconfirmed, List.append_assoc ..⟩
  · rw [approveArchitectural, run_bind_error hrun]
    exact .refused e trace hno

variable (action)

theorem routeApproval_outcome :
    GateOutcome (Evidence action ctx) ((routeApproval c ctx action metrics).run []) := by
  rw [routeApproval]
  cases hclass : action.destructiveness with
  | readOnly =>
    apply passThroughReadOnly_outcome
    rw [Evidence, hclass]
  | reversible => exact requestStandardApproval_outcome c ctx (Or.inl hclass)
  | persistentModifying => exact requestStandardApproval_outcome c ctx (Or.inr hclass)
  | dataAffecting => exact requestDataAffectingApproval_outcome c ctx metrics hclass
  | architectural =>
    dsimp only
    rw [requestArchitecturalApproval]
    split_ifs with hreport
    · exact .refused _ _ fun _ h => nomatch h
    · cases hr : action.dryRunReport with
      | none => exact absurd (by rw [hr]; rfl) hreport
      | some report =>
        rw [hr] at hreport
        exact approveArchitectural_outcome c ctx metrics hclass hr hreport
  | unknown => exact .refused _ _ fun _ h => nomatch h

theorem emitLatency_run (trace : GateTrace) : (emitLatency c action metrics).run trace = .ok () trace ∨
    ∃ e, (emitLatency c action metrics).run trace = .error e trace := by
  cases metrics with
  | none => exact Or.inl rfl
  | some m =>
    have hrun : (emitLatency c action (some m)).run trace = (throwIf
        (c.emit trace (.gateLatency m.actionType action.destructiveness.text))).run trace := rfl
    rw [hrun]
    cases c.emit trace (.gateLatency m.actionType action.destructiveness.text) with
    | none => exact Or.inl rfl
    | some value => exact Or.inr ⟨_, rfl⟩

/-- The metric at the end can only turn an approval into an error. -/
theorem gateApproval_outcome :
    GateOutcome (Evidence action ctx) ((gateApproval c ctx action metrics).run []) := by
  have houtcome := routeApproval_outcome c ctx action metrics
  cases hroute : (routeApproval c ctx action metrics).run [] with
  | ok result trace =>
    rw [hroute] at houtcome
    rw [gateApproval, run_ensuring_ok hroute]
    cases houtcome with
    | allowed _ before event hE ht =>
      obtain hemit | ⟨e, hemit⟩ := emitLatency_run c action metrics (before ++ [.audited event none])
      · rw [run_bind_ok hemit]
        exact .allowed result before event hE ht
      · rw [run_bind_error hemit]
        exact .failed e before _ hE ht
  | error e trace =>
    rw [hroute] at houtcome
    rw [gateApproval, run_ensuring_error hroute]
    obtain ⟨e', hrun⟩ : ∃ e', (emitLatency c action metrics >>= fun _ => throw e :
        Gate ApprovalResult).run trace = .error e' trace := by
      obtain hemit | ⟨e', hemit⟩ := emitLatency_run c action metrics trace
      · exact ⟨e, run_bind_ok hemit _⟩
      · exact ⟨e', run_bind_error hemit _⟩
    rw [hrun]
    cases houtcome with
    | refused _ _ hno => exact .refused e' trace hno
    | failed _ before grant hE hg => exact .failed e' before grant hE hg

/-- Without its report an architectural action is refused before anyone is asked. -/
theorem gateApproval_noReport (hclass : action.destructiveness = .architectural)
    (hreport : action.dryRunReport.getD [] = []) :
    after ((gateApproval c ctx action metrics).run []) = [] := by
  have hroute : (routeApproval c ctx action metrics).run [] = .error
      (.error (js "architectural action " ++ action.id ++ js " missing required dryRunReport")) [] := by
    rw [routeApproval, hclass]
    dsimp only
    rw [requestArchitecturalApproval, if_pos hreport]
    rfl
  rw [gateApproval, run_ensuring_error hroute]
  obtain hemit | ⟨e, hemit⟩ := emitLatency_run c action metrics []
  · rw [run_bind_ok hemit]
    rfl
  · rw [run_bind_error hemit]
    rfl

end

/-! ### Safety of the traces -/

theorem BackupShown.ok {action : Action} {ctx : GateContext} {shown : GateTrace}
    (h : BackupShown action ctx shown) : ∀ e ∈ shown, ¬IsGrant e ∧ ¬Threw e := by
  intro e he
  obtain ⟨_, rfl⟩ | ⟨_, event, ht, _, rfl⟩ := h
  · rw [List.mem_singleton.mp he]
    exact ⟨id, fun h => h rfl⟩
  · rcases List.mem_cons.mp he with rfl | he
    · exact ⟨id, id⟩
    · rw [List.mem_singleton.mp he]
      exact ⟨fun h => (nomatch ht.symm.trans h), fun h => h rfl⟩

theorem Confirmed.ok {e : GateEvent} (h : Confirmed e) : ¬IsGrant e ∧ ¬Threw e := by
  cases e with
  | modal => exact ⟨id, id⟩
  | _ => exact h.elim

/-- Evidence is made of calls that returned, and holds no grant. -/
theorem Evidence.ok {action : Action} {ctx : GateContext} {trace : GateTrace}
    (h : Evidence action ctx trace) : ∀ e ∈ trace, ¬IsGrant e ∧ ¬Threw e := by
  intro e he
  unfold Evidence at h
  split at h
  · rw [h] at he
    cases he
  · obtain ⟨c, hc, rfl⟩ := h
    rw [List.mem_singleton.mp he]
    exact hc.ok
  · obtain ⟨c, hc, rfl⟩ := h
    rw [List.mem_singleton.mp he]
    exact hc.ok
  · obtain ⟨shown, c, hshown, hc, rfl⟩ := h
    rcases List.mem_append.mp he with he | he
    · exact hshown.ok e he
    · rw [List.mem_singleton.mp he]
      exact hc.ok
  · obtain ⟨report, shown, c, _, _, hshown, hc, rfl⟩ := h
    rcases List.mem_append.mp he with he | he
    · exact hshown.ok e he
    · rcases List.mem_cons.mp he with rfl | he
      · exact ⟨id, fun h => h rfl⟩
      · rw [List.mem_singleton.mp he]
        exact hc.ok
  · exact h.elim

/-- Every outcome is safe: a grant stands behind evidence, and nothing else is granted. -/
theorem outcome_safe {action : Action} {ctx : GateContext}
    {run : EStateM.Result GateError GateTrace ApprovalResult}
    (houtcome : GateOutcome (Evidence action ctx) run) :
    (∀ result trace, run = .ok result trace → ∃ before event, Evidence action ctx before ∧
      event.type = .allowed ∧ trace = before ++ [.audited event none]) ∧
    ((¬∃ before, before <+: after run ∧ Evidence action ctx before) ∨
      (∃ e ∈ after run, Threw e ∧ ¬IsGrant e) →
      NoGrant (after run) ∧ ∃ e trace, run = .error e trace) := by
  -- a grant behind evidence excludes both a lack of evidence and an earlier throw
  have hexcluded {before : GateTrace} {grant : GateEvent} (hE : Evidence action ctx before)
      (hg : IsGrant grant) : ¬((¬∃ b, b <+: before ++ [grant] ∧ Evidence action ctx b) ∨
        ∃ e ∈ before ++ [grant], Threw e ∧ ¬IsGrant e) := by
    rintro (hmissing | ⟨e, he, hthrew, hnot⟩)
    · exact hmissing ⟨before, List.prefix_append .., hE⟩
    · rcases List.mem_append.mp he with he | he
      · exact (hE.ok e he).2 hthrew
      · rw [List.mem_singleton.mp he] at hnot
        exact hnot hg
  cases houtcome with
  | allowed result before event hE ht =>
    constructor
    · intro result' trace hrun
      cases hrun
      exact ⟨before, event, hE, ht, rfl⟩
    · exact fun h => absurd h (hexcluded hE ht)
  | refused e trace hno => exact ⟨fun _ _ h => (nomatch h), fun _ => ⟨hno, e, trace, rfl⟩⟩
  | failed e before grant hE hg =>
    exact ⟨fun _ _ h => (nomatch h), fun h => absurd h (hexcluded hE hg)⟩

/-- The gate resolves only on all the evidence that the class requires, in order, followed
by a `gate.allowed` entry that the audit took. Where evidence is missing, or a call other
than that last one threw, the call rejects and no such entry is handed to the audit; and
the report of an architectural action is checked before anything is asked. -/
theorem gate_trace_safe (c : Collaborators) (ctx : GateContext) (action : Action)
    (metrics : Option GateMetricsHook) :
    (∀ result trace, (gateApproval c ctx action metrics).run [] = .ok result trace →
      ∃ before event, Evidence action ctx before ∧ event.type = .allowed ∧
        trace = before ++ [.audited event none]) ∧
    ((¬∃ before, before <+: after ((gateApproval c ctx action metrics).run []) ∧
        Evidence action ctx before) ∨
      (∃ e ∈ after ((gateApproval c ctx action metrics).run []), Threw e ∧ ¬IsGrant e) →
      NoGrant (after ((gateApproval c ctx action metrics).run [])) ∧
        ∃ e trace, (gateApproval c ctx action metrics).run [] = .error e trace) ∧
    (action.destructiveness = .architectural → action.dryRunReport.getD [] = [] →
      after ((gateApproval c ctx action metrics).run []) = []) := by
  obtain ⟨hresolves, hrejects⟩ := outcome_safe (gateApproval_outcome c ctx action metrics)
  exact ⟨hresolves, hrejects, gateApproval_noReport c ctx action metrics⟩

end Homelab
