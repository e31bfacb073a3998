import Homelab.Automaton
import Homelab.Reloading

/-! `MigrationOrchestrator` for one migration id: the file of its state, the call of `start`
or `resume` that is running, and the calls of `cancel`. Between two awaits a call runs
without interruption; what it awaits takes effect at some moment before it goes on. -/
namespace Homelab
open Js

/-! ### What is thrown and what has happened -/

/-- A thrown value, as far as it is read: `message` if it is neither `null` nor undefined,
and `code` if it is defined. -/
inductive ThrownValue
  | nullish
  | error (message code : Option ProperValue)

def properText (s : JsString) : ProperValue := ⟨.str s, rfl⟩

/-- An `Error` without a code. -/
def ThrownValue.text (message : JsString) : ThrownValue := .error (some (properText message)) none

/-- `ApprovalDeniedError` -/
def approvalDenied (actionId : JsString) : ThrownValue :=
  .error (some (properText (js "Action " ++ actionId ++
    js " denied: typed-CONFIRM rejected after 24h delay"))) (some (properText (js "APPROVAL_DENIED")))

/-- What has happened to the migration. `invoked` is the call of a phase's handler or, for
the approval phase, of `verifyBackup`. -/
inductive Mark
  | invoked (phase : MigrationPhaseName)
  | verified
  | delayed
  | confirmed
  | returned (output : ProperValue)
  | threw (e : ThrownValue)
  | persisted (index : ℕ) (status : OverallStatus)
  | cancelled

/-! ### The file -/

/-- The file is absent, cut short, or whole; then it holds the state that was written, as
`JSON.parse` reads it. -/
inductive StateFile
  | missing
  | torn
  | whole (state : MigrationState) (raw : JsValue)

/-- `loadMigrationState` on what was read. -/
def StateFile.load (host : HmacHost) (id : JsString) : StateFile → Option MigrationState
  | .whole state raw =>
    match loadMigrationState host id raw with
    | .ok _ => some state.reloaded
    | .error _ => none
  | _ => none

/-- What `saveMigrationState` hands to `writeFile`, which takes texts only. -/
def signedFile (host : HmacHost) (state : MigrationState) : Except JsString JsValue := do
  match ← saveMigrationState host state with
  | some raw => .ok raw
  | none => .error (js "The \"data\" argument must be of type string")

/-- Where a call of `saveMigrationState` waits. -/
inductive Saving
  | mkdir
  | writing (raw : JsValue)
  | written

/-! ### `start` and `resume` -/

/-- Why a run saves its state. -/
inductive SavePoint
  | started
  | entered
  | left
  | failed
  | finished
deriving DecidableEq

inductive RunPoint
  | saving (why : SavePoint) (step : Saving)
  | handling
  | verifying
  | delaying
  | confirming
  | settled

/-- A run in memory: its state, the index of the `phase` of its loop, and what it awaits. -/
structure LiveRun where
  state : MigrationState
  phase : ℕ
  point : RunPoint

/-- A phase when its handler is about to be called. -/
def MigrationPhase.start (now : JsString) (p : MigrationPhase) : MigrationPhase :=
  { p with status := .inProgress, startedAt := some now }

def MigrationPhase.complete (now : JsString) (p : MigrationPhase) : MigrationPhase :=
  { p with status := .complete, completedAt := some now }

def MigrationPhase.fail (error : Option PhaseError) (p : MigrationPhase) : MigrationPhase :=
  { p with status := .failed, error := error.or p.error }

def MigrationPhase.answer (output : ProperValue) (p : MigrationPhase) : MigrationPhase :=
  { p with output := some output }

def MigrationPhase.cancel (p : MigrationPhase) : MigrationPhase := { p with status := .cancelled }

def MigrationState.updatePhase (s : MigrationState) (k : ℕ) (f : MigrationPhase → MigrationPhase) :
    MigrationState :=
  { s with phases := s.phases.modify k f }

/-- The head of the loop of `run`, and `runPhase` up to its first await. -/
def advance (s : MigrationState) (now : JsString) : LiveRun :=
  if s.overallStatus ≠ .inFlight then ⟨s, s.currentPhaseIndex, .settled⟩
  else match s.phases[s.currentPhaseIndex]? with
    | none => ⟨{ s with overallStatus := .complete }, s.currentPhaseIndex, .saving .finished .mkdir⟩
    | some _ =>
      ⟨s.updatePhase s.currentPhaseIndex (.start now), s.currentPhaseIndex, .saving .entered .mkdir⟩

theorem advance_settled {s : MigrationState} (h : s.overallStatus ≠ .inFlight) (now : JsString) :
    advance s now = ⟨s, s.currentPhaseIndex, .settled⟩ := if_pos h

theorem advance_finished {s : MigrationState} (h : s.overallStatus = .inFlight)
    (hphase : s.phases[s.currentPhaseIndex]? = none) (now : JsString) : advance s now =
      ⟨{ s with overallStatus := .complete }, s.currentPhaseIndex, .saving .finished .mkdir⟩ := by
  rw [advance, if_neg (not_not.mpr h), hphase]

theorem advance_entered {s : MigrationState} (h : s.overallStatus = .inFlight) {p : MigrationPhase}
    (hphase : s.phases[s.currentPhaseIndex]? = some p) (now : JsString) : advance s now =
      ⟨s.updatePhase s.currentPhaseIndex (.start now), s.currentPhaseIndex,
        .saving .entered .mkdir⟩ := by
  rw [advance, if_neg (not_not.mpr h), hphase]

namespace LiveRun

def phaseName (r : LiveRun) : Option MigrationPhaseName := r.state.phases[r.phase]?.map (·.name)

/-- The `catch` of `run`: on `null` and undefined it throws itself, after `status`. -/
def caught (r : LiveRun) : ThrownValue → LiveRun
  | .nullish => { r with
      state := r.state.updatePhase r.phase (.fail none)
      point := .settled }
  | .error message code => { r with
      state := { r.state.updatePhase r.phase
          (.fail (some ⟨message.getD (properText (js "unknown")), code⟩)) with
        overallStatus := .failed }
      point := .saving .failed .mkdir }

/-- What is awaited throws: the saves at the start and after the `catch` are outside of
the `try`. -/
def throw (r : LiveRun) (e : ThrownValue) : LiveRun :=
  match r.point with
  | .saving .started _ => { r with point := .settled }
  | .saving .failed _ => { r with point := .settled }
  | .saving .finished _ => { r with point := .settled }
  | .settled => r
  | _ => r.caught e

/-- The end of `runPhase`. -/
def leave (r : LiveRun) (now : JsString) : LiveRun :=
  { r with
    state := { r.state.updatePhase r.phase (.complete now) with
      currentPhaseIndex := r.state.currentPhaseIndex+1 }
    point := .saving .left .mkdir }

/-- What the handler returned is the phase's output, and `execute` completes the migration. -/
def answered (r : LiveRun) (output : ProperValue) (now : JsString) : LiveRun :=
  let state := r.state.updatePhase r.phase (.answer output)
  let status := if r.phaseName = some .execute then .complete else state.overallStatus
  ({ r with state := { state with overallStatus := status } } : LiveRun).leave now

/-- After a save. -/
def saved (r : LiveRun) (now : JsString) : SavePoint → LiveRun
  | .started => advance r.state now
  | .entered =>
    { r with point := if r.phaseName = some .approvalDelay then .verifying else .handling }
  | .left => advance r.state now
  | .failed => { r with point := .settled }
  | .finished => { r with point := .settled }

/-- The run goes on to its next await. -/
def go (host : HmacHost) (now : JsString) (r : LiveRun) : LiveRun :=
  match r.point with
  | .saving why .mkdir =>
    match signedFile host r.state with
    | .ok raw => { r with point := .saving why (.writing raw) }
    | .error message => r.throw (.text message)
  | .saving why .written => r.saved now why
  | _ => r

/-- What is invoked when the run goes on. -/
def invokes (r : LiveRun) : List Mark :=
  match r.point with
  | .saving .entered .written => (r.phaseName.map Mark.invoked).toList
  | _ => []

/-- The run waits for nothing but the file system. -/
def ready (r : LiveRun) : Prop :=
  match r.point with
  | .saving _ .mkdir => True
  | .saving _ .written => True
  | _ => False

def saves (r : LiveRun) : Prop :=
  match r.point with
  | .saving _ _ => True
  | _ => False

/-- The run awaits what is not its own. -/
def asks (r : LiveRun) : Prop :=
  match r.point with
  | .saving _ _ => False
  | .settled => False
  | _ => True

end LiveRun

/-- The latest call of `start` or `resume`. -/
inductive MigrationCall
  | none
  | reading
  | read (file : StateFile)
  | refused
  | run (r : LiveRun)

/-- No call is running. -/
def MigrationCall.idle : MigrationCall → Prop
  | .none => True
  | .refused => True
  | .run r => r.point = .settled
  | _ => False

/-! ### `cancel` -/

inductive CancelCall
  | reading
  | read (file : StateFile)
  | stopping (state : MigrationState)
  | saving (state : MigrationState) (step : Saving)
  | ended

/-- The state that `cancel` saves. -/
def MigrationState.cancelled (s : MigrationState) : MigrationState :=
  { s.updatePhase s.currentPhaseIndex .cancel with overallStatus := .cancelled }

/-- The call goes on; whatever `cancelDelayedAction` does is ignored. -/
def CancelCall.go (host : HmacHost) (id : JsString) : CancelCall → CancelCall
  | .read file =>
    match file.load host id with
    | none => .ended
    | some state => if state.overallStatus = .inFlight then .stopping state else .ended
  | .stopping state => .saving state.cancelled .mkdir
  | .saving state .mkdir =>
    match signedFile host state with
    | .ok raw => .saving state (.writing raw)
    | .error _ => .ended
  | .saving _ .written => .ended
  | c => c

/-- A cancel that has found the state in flight resolves. -/
def CancelCall.resolves : CancelCall → List Mark
  | .saving _ .written => [.cancelled]
  | _ => []

/-- The call waits for the file system. -/
def CancelCall.awaits : CancelCall → Prop
  | .reading => True
  | .saving _ _ => True
  | _ => False

def CancelCall.ready : CancelCall → Prop
  | .read _ => True
  | .stopping _ => True
  | .saving _ .mkdir => True
  | .saving _ .written => True
  | _ => False

/-! ### The system -/

structure MigrationSystem where
  file : StateFile
  call : MigrationCall
  cancels : List CancelCall
  /-- Latest first. -/
  log : List Mark

/-- The first await of `start(plan)`. -/
def startMigration (file : StateFile) (plan : Migration) : MigrationSystem :=
  ⟨file, .run ⟨⟨plan, 0, .inFlight⟩, 0, .saving .started .mkdir⟩, [], []⟩

inductive MigrationEvent
  | resume
  | read
  | go (now : JsString)
  | tear
  | land
  | refuse (message code : JsString)
  | returns (output : ProperValue) (now : JsString)
  | verified
  | delayed
  | confirms (accepted : Bool) (now : JsString)
  | throws (e : ThrownValue)
  | crash
  | cancel
  | cancelReads (i : ℕ)
  | cancelGoes (i : ℕ)
  | cancelTears (i : ℕ)
  | cancelLands (i : ℕ)
  | cancelFails (i : ℕ)

namespace MigrationSystem

def cancelCall (s : MigrationSystem) (i : ℕ) : CancelCall := s.cancels.getD i .ended

def setCancel (s : MigrationSystem) (i : ℕ) (c : CancelCall) : MigrationSystem :=
  { s with cancels := s.cancels.set i c }

def setRun (s : MigrationSystem) (r : LiveRun) : MigrationSystem := { s with call := .run r }

def mark (s : MigrationSystem) (marks : List Mark) : MigrationSystem :=
  { s with log := marks ++ s.log }

/-- A state is in the file. -/
def store (s : MigrationSystem) (state : MigrationState) (raw : JsValue) : MigrationSystem :=
  { s with
    file := .whole state raw
    log := .persisted state.currentPhaseIndex state.overallStatus :: s.log }

/-- The call goes on. -/
def goCall (host : HmacHost) (id : JsString) (now : JsString) (s : MigrationSystem) :
    MigrationCall → MigrationSystem
  | .read file =>
    match file.load host id with
    | none => { s with call := .refused }
    | some state => s.setRun (advance state now)
  | .run r => (s.mark r.invokes).setRun (r.go host now)
  | _ => s

def landCall (s : MigrationSystem) : MigrationCall → MigrationSystem
  | .run ⟨state, phase, .saving why (.writing raw)⟩ =>
    (s.store state raw).setRun ⟨state, phase, .saving why .written⟩
  | _ => s

def refuseCall (s : MigrationSystem) (e : ThrownValue) : MigrationCall → MigrationSystem
  | .reading => { s with call := .refused }
  | .run r => s.setRun (r.throw e)
  | _ => s

/-- What a run awaits that is not its own answers with `f`. -/
def answerCall (s : MigrationSystem) (marks : List Mark) (f : LiveRun → LiveRun) :
    MigrationCall → MigrationSystem
  | .run r => (s.mark marks).setRun (f r)
  | _ => s

def landCancel (s : MigrationSystem) (i : ℕ) : CancelCall → MigrationSystem
  | .saving state (.writing raw) => (s.store state raw).setCancel i (.saving state .written)
  | _ => s

end MigrationSystem

def MigrationCall.at (point : RunPoint) : MigrationCall → Prop
  | .run r => r.point = point
  | _ => False

def MigrationCall.writes : MigrationCall → Prop
  | .run ⟨_, _, .saving _ (.writing _)⟩ => True
  | _ => False

def CancelCall.writes : CancelCall → Prop
  | .saving _ (.writing _) => True
  | _ => False

/-- Everything that can happen to a migration. One run is live at a time. -/
def migrationMachine (host : HmacHost) (id : JsString) : Automaton MigrationSystem MigrationEvent where
  allowed s
    | .resume => s.call.idle
    | .read => s.call = .reading
    | .go _ => (∃ file, s.call = .read file) ∨ ∃ r, s.call = .run r ∧ r.ready
    | .tear => s.call.writes
    | .land => s.call.writes
    | .refuse _ _ => s.call = .reading ∨ ∃ r, s.call = .run r ∧ r.saves
    | .returns _ _ => s.call.at .handling
    | .verified => s.call.at .verifying
    | .delayed => s.call.at .delaying
    | .confirms _ _ => s.call.at .confirming
    | .throws _ => ∃ r, s.call = .run r ∧ r.asks
    | .crash => True
    | .cancel => True
    | .cancelReads i => s.cancelCall i = .reading
    | .cancelGoes i => (s.cancelCall i).ready
    | .cancelTears i => (s.cancelCall i).writes
    | .cancelLands i => (s.cancelCall i).writes
    | .cancelFails i => (s.cancelCall i).awaits
  next s
    | .resume => { s with call := .reading }
    | .read => { s with call := .read s.file }
    | .go now => s.goCall host id now s.call
    | .tear => { s with file := .torn }
    | .land => s.landCall s.call
    | .refuse message code =>
      s.refuseCall (.error (some (properText message)) (some (properText code))) s.call
    | .returns output now => s.answerCall [.returned output] (·.answered output now) s.call
    | .verified => s.answerCall [.verified] (fun r => { r with point := .delaying }) s.call
    | .delayed => s.answerCall [.delayed] (fun r => { r with point := .confirming }) s.call
    | .confirms accepted now =>
      if accepted then s.answerCall [.confirmed] (·.leave now) s.call
      else s.answerCall [] (fun r => r.caught (approvalDenied r.state.migrationId)) s.call
    | .throws e => s.answerCall [.threw e] (·.throw e) s.call
    | .crash => { s with call := .none, cancels := [] }
    | .cancel => { s with cancels := s.cancels ++ [.reading] }
    | .cancelReads i => s.setCancel i (.read s.file)
    | .cancelGoes i => (s.mark (s.cancelCall i).resolves).setCancel i ((s.cancelCall i).go host id)
    | .cancelTears _ => { s with file := .torn }
    | .cancelLands i => s.landCancel i (s.cancelCall i)
    | .cancelFails i => s.setCancel i .ended

/-! ### Saves -/

variable {host : HmacHost} {id : JsString} {state : MigrationState} {raw : JsValue}

theorem signedFile_iff : signedFile host state = .ok raw ↔
    saveMigrationState host state = .ok (some raw) := by
  rw [signedFile]
  cases saveMigrationState host state with
  | error message => exact ⟨fun h => (by cases h), fun h => (by cases h)⟩
  | ok file =>
    cases file with
    | none => exact ⟨fun h => (by cases h), fun h => (by cases h)⟩
    | some raw' =>
      constructor
      · intro h
        exact congrArg (Except.ok ∘ some) (Except.ok.inj h)
      · intro h
        exact congrArg Except.ok (Option.some.inj (Except.ok.inj h))

theorem getElem?_updatePhase (s : MigrationState) (k : ℕ) (f : MigrationPhase → MigrationPhase)
    (i : ℕ) : (s.updatePhase k f).phases[i]? =
      s.phases[i]?.map fun p => if k = i then f p else p := by
  rw [MigrationState.updatePhase, List.getElem?_modify]
  rfl

theorem storable_updatePhase (h : state.toMigration.Storable) (k : ℕ)
    {f : MigrationPhase → MigrationPhase} (hf : ∀ p : MigrationPhase, p.Storable → (f p).Storable) :
    (state.updatePhase k f).toMigration.Storable := by
  refine ⟨h.1, ?_⟩
  intro p hp
  obtain ⟨i, hi⟩ := List.mem_iff_getElem?.mp hp
  rw [getElem?_updatePhase] at hi
  obtain ⟨p', hp', rfl⟩ := Option.map_eq_some_iff.mp hi
  have hold := h.2 p' (List.mem_of_getElem? hp')
  split_ifs
  · exact hf p' hold
  · exact hold

theorem signedFile_of_storable {key : Bytes} (hkey : host.getSecret = .ok key)
    (hid : isUlid state.migrationId = true) (h : state.toMigration.Storable) :
    ∃ raw, signedFile host state = .ok raw := by
  obtain ⟨raw, hraw⟩ := saves_of_storable hkey hid h
  exact ⟨raw, signedFile_iff.mpr hraw⟩

/-- A run saves a state that can be signed. -/
theorem reaches_saved {C : MigrationSystem → MigrationEvent → Prop} {s t : MigrationSystem}
    (h : (migrationMachine host id).Reaches C s t) {phase : ℕ} {why : SavePoint}
    (hrun : t.call = .run ⟨state, phase, .saving why .mkdir⟩) (hfile : signedFile host state = .ok raw)
    (now : JsString) (hC : ∀ u, C u (.go now) ∧ C u .land) :
    (migrationMachine host id).Reaches C s
      ((t.store state raw).setRun ⟨state, phase, .saving why .written⟩) := by
  have hready : (∃ file, t.call = .read file) ∨ ∃ r, t.call = .run r ∧ r.ready :=
    .inr ⟨_, hrun, trivial⟩
  have hgo := h.step (e := MigrationEvent.go now) hready (hC t).1
  have hnext : (migrationMachine host id).next t (.go now) =
      t.setRun ⟨state, phase, .saving why (.writing raw)⟩ := by
    simp only [migrationMachine, hrun, MigrationSystem.goCall, LiveRun.go, hfile]
    cases why <;> rfl
  rw [hnext] at hgo
  exact hgo.step (e := MigrationEvent.land) trivial (hC _).2

/-- A run whose state cannot be signed throws. -/
theorem reaches_unsaved {C : MigrationSystem → MigrationEvent → Prop} {s t : MigrationSystem}
    (h : (migrationMachine host id).Reaches C s t) {phase : ℕ} {why : SavePoint}
    (hrun : t.call = .run ⟨state, phase, .saving why .mkdir⟩) {message : JsString}
    (hfile : signedFile host state = .error message) (now : JsString) (hC : ∀ u, C u (.go now)) :
    (migrationMachine host id).Reaches C s
      (t.setRun (LiveRun.throw ⟨state, phase, .saving why .mkdir⟩ (.text message))) := by
  have hready : (∃ file, t.call = .read file) ∨ ∃ r, t.call = .run r ∧ r.ready :=
    .inr ⟨_, hrun, trivial⟩
  have hgo := h.step (e := MigrationEvent.go now) hready (hC t)
  have hnext : (migrationMachine host id).next t (.go now) =
      t.setRun (LiveRun.throw ⟨state, phase, .saving why .mkdir⟩ (.text message)) := by
    simp only [migrationMachine, hrun, MigrationSystem.goCall, LiveRun.go, hfile]
    cases why <;> rfl
  rw [hnext] at hgo
  exact hgo

end Homelab
