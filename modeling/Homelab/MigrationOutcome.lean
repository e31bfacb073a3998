import Homelab.MigrationOrder

/-! What is on disk when `start` or `resume` settles, for whatever the handlers return and
throw. -/
namespace Homelab
open Js

/-! ### What can be stored -/

def ThrownValue.Storable : ThrownValue → Prop
  | .nullish => False
  | .error message code => (∀ m, message = some m → m.val.Storable) ∧ ∀ c, code = some c → c.val.Storable

/-- What a handler returned or threw can be stored. -/
def Mark.Storable : Mark → Prop
  | .returned output => output.val.Storable
  | .threw e => e.Storable
  | _ => True

/-- Everything that the handlers have returned or thrown can be stored. -/
def AllStorable (log : List Mark) : Prop := ∀ m ∈ log, m.Storable

/-- There is a secret, the id is a ULID, and what came from the handlers can be stored. -/
structure Provided (host : HmacHost) (id : JsString) (log : List Mark) : Prop where
  secret : ∃ key, host.getSecret = .ok key
  ulid : isUlid id = true
  sound : AllStorable log

/-- The file loads, verifies and has the terminal status of the state in memory. -/
structure Persisted (host : HmacHost) (id : JsString) (file : StateFile) (state : MigrationState) :
    Prop where
  terminal : state.overallStatus ≠ .inFlight
  loads : ∃ saved raw payload, file = .whole saved raw ∧ loadMigrationState host id raw = .ok payload ∧
    property (js "overall_status") payload = .str state.overallStatus.text

/-- A call of `start` or `resume` that is not disturbed: no crash, no refused or torn
write, and no cancel. -/
def Undisturbed (_ : MigrationSystem) : MigrationEvent → Prop
  | .read => True
  | .go _ => True
  | .land => True
  | .returns _ _ => True
  | .verified => True
  | .delayed => True
  | .confirms _ _ => True
  | .throws _ => True
  | _ => False

/-- A `resume` of the state that was saved in the file. -/
def resumeMigration (saved : MigrationState) (raw : JsValue) : MigrationSystem :=
  ⟨.whole saved raw, .reading, [], []⟩

/-- The beginning of a call: `start` on any file, or `resume` on a file that was saved. A
plan is a JSON document, so it can be stored. -/
inductive Begins (host : HmacHost) : JsString → MigrationSystem → Prop
  | start (file : StateFile) (plan : Migration) (h : plan.Storable) :
      Begins host plan.migrationId (startMigration file plan)
  | resume (saved : MigrationState) (raw : JsValue) (hraw : signedFile host saved = .ok raw)
      (h : saved.toMigration.Storable) : Begins host saved.migrationId (resumeMigration saved raw)

/-! ### What a run knows -/

variable {host : HmacHost} {id : JsString} {file : StateFile} {log : List Mark}
  {state : MigrationState} {r : LiveRun}

/-- The handlers have thrown nothing. -/
def NothingThrown (log : List Mark) : Prop := ∀ e, .threw e ∉ log

/-- What was thrown is the error of a phase. -/
def Recorded (log : List Mark) (s : MigrationState) : Prop :=
  ∀ e, .threw e ∈ log → ∃ message code, e = .error message code ∧
    ∃ p ∈ s.phases, p.error = some ⟨message.getD (properText (js "unknown")), code⟩

/-- The state is what was written to the file. -/
def Written (host : HmacHost) (file : StateFile) (s : MigrationState) : Prop :=
  ∃ raw, file = .whole s raw ∧ signedFile host s = .ok raw

/-- The file holds an earlier state, in flight. -/
def Behind (host : HmacHost) (file : StateFile) : Prop :=
  ∃ saved, Written host file saved ∧ saved.overallStatus = .inFlight

def SaveKnows (host : HmacHost) (file : StateFile) (s : MigrationState) : Saving → Prop
  | .mkdir => True
  | .writing raw => signedFile host s = .ok raw
  | .written => Written host file s

/-- The phase is in the plan, and nothing was thrown in it. -/
structure InPhase (log : List Mark) (s : MigrationState) (k : ℕ) : Prop where
  fresh : NothingThrown log
  index : s.currentPhaseIndex = k
  phase : k < s.phases.length
  status : s.overallStatus = .inFlight

/-- How a call has settled. -/
inductive SettledAs (host : HmacHost) (id : JsString) (file : StateFile) (log : List Mark)
    (s : MigrationState) : Prop
  | inFlight (h : s.overallStatus = .inFlight) (hprovided : ¬ Provided host id log)
  | written (h : s.overallStatus ≠ .inFlight) (hwritten : Written host file s)
      (hrecorded : Recorded log s)
  | unsaved (h : s.overallStatus ≠ .inFlight) (hbehind : Behind host file)
      (hfile : ∀ raw, signedFile host s ≠ .ok raw)
  | loaded (saved : MigrationState) (hwritten : Written host file saved)
      (hstorable : saved.toMigration.Storable) (h : saved.overallStatus ≠ .inFlight)
      (hs : s = saved.reloaded) (hlog : log = [])

def PointKnows (host : HmacHost) (id : JsString) (file : StateFile) (log : List Mark) (r : LiveRun) :
    RunPoint → Prop
  | .saving .started step =>
      NothingThrown log ∧ r.state.overallStatus = .inFlight ∧ SaveKnows host file r.state step
  | .saving .entered step =>
      InPhase log r.state r.phase ∧ Behind host file ∧ SaveKnows host file r.state step
  | .saving .left .written => NothingThrown log ∧ Written host file r.state
  | .saving .left step => NothingThrown log ∧ Behind host file ∧ SaveKnows host file r.state step
  | .saving _ .written => Recorded log r.state ∧ r.state.overallStatus ≠ .inFlight ∧
      Written host file r.state
  | .saving _ step => Recorded log r.state ∧ r.state.overallStatus ≠ .inFlight ∧
      Behind host file ∧ SaveKnows host file r.state step
  | .settled => SettledAs host id file log r.state
  | _ => InPhase log r.state r.phase ∧ Behind host file

/-- What a run knows of its state and of what the handlers did. -/
structure StateKnows (id : JsString) (log : List Mark) (s : MigrationState) : Prop where
  sameId : s.migrationId = id
  storable : AllStorable log → s.toMigration.Storable
  outputs : ∀ v, .returned v ∈ log → ∃ k p, k < s.currentPhaseIndex ∧ s.phases[k]? = some p ∧
    p.output = some v

structure RunKnows (host : HmacHost) (id : JsString) (file : StateFile) (log : List Mark)
    (r : LiveRun) : Prop where
  state : StateKnows id log r.state
  point : PointKnows host id file log r r.point

theorem AllStorable.tail {m : Mark} (h : AllStorable (m :: log)) : AllStorable log :=
  fun m' hm' => h m' (List.mem_cons_of_mem _ hm')

theorem NothingThrown.recorded (h : NothingThrown log) : Recorded log state := fun e he => absurd he (h e)

/-- A phase is changed otherwise than in its output. -/
theorem StateKnows.update (h : StateKnows id log state) (k : ℕ) {f : MigrationPhase → MigrationPhase}
    (hstorable : AllStorable log → ∀ p : MigrationPhase, p.Storable → (f p).Storable)
    (houtput : ∀ p, (f p).output = p.output) : StateKnows id log (state.updatePhase k f) := by
  refine ⟨h.sameId, fun hsound => storable_updatePhase (h.storable hsound) k (hstorable hsound), ?_⟩
  intro v hv
  obtain ⟨i, p, hi, hp, hout⟩ := h.outputs v hv
  refine ⟨i, if k = i then f p else p, hi, ?_, ?_⟩
  · rw [getElem?_updatePhase, hp]
    rfl
  · split_ifs
    · exact (houtput p).trans hout
    · exact hout

/-- A mark that is not an output. -/
theorem StateKnows.cons {m : Mark} (hm : ∀ v, m ≠ .returned v) (h : StateKnows id log state) :
    StateKnows id (m :: log) state := by
  refine ⟨h.sameId, fun hsound => h.storable hsound.tail, ?_⟩
  intro v hv
  rcases List.mem_cons.mp hv with heq | hv
  · exact absurd heq.symm (hm v)
  · exact h.outputs v hv

/-- From the head of the loop a run knows what it knew, when the file holds its state. -/
theorem advance_knows (h : StateKnows id log state) (hfresh : NothingThrown log)
    (hbehind : state.overallStatus = .inFlight → Behind host file)
    (hsettled : state.overallStatus ≠ .inFlight → SettledAs host id file log state) (now : JsString) :
    RunKnows host id file log (advance state now) := by
  by_cases hflight : state.overallStatus = .inFlight
  · cases hphase : state.phases[state.currentPhaseIndex]? with
    | none =>
      rw [advance_finished hflight hphase]
      exact ⟨⟨h.sameId, h.storable, h.outputs⟩, hfresh.recorded, fun hcontra => (by cases hcontra),
        hbehind hflight, trivial⟩
    | some p =>
      rw [advance_entered hflight hphase]
      obtain ⟨hlt, _⟩ := List.getElem?_eq_some_iff.mp hphase
      refine ⟨h.update _ (fun _ _ hp => hp) fun _ => rfl, ⟨hfresh, rfl, ?_, hflight⟩,
        hbehind hflight, trivial⟩
      rw [MigrationState.updatePhase, List.length_modify]
      exact hlt
  · rw [advance_settled hflight]
    exact ⟨h, hsettled hflight⟩

/-! ### What each step keeps -/

theorem signedFile_fails (h : StateKnows id log state) {message : JsString}
    (hfile : signedFile host state = .error message) : ¬ Provided host id log := by
  intro hprovided
  obtain ⟨key, hkey⟩ := hprovided.secret
  obtain ⟨raw, hraw⟩ := signedFile_of_storable hkey (by rw [h.sameId]; exact hprovided.ulid)
    (h.storable hprovided.sound)
  rw [hraw] at hfile
  cases hfile

theorem storable_fail {message code : Option ProperValue}
    (h : (ThrownValue.error message code).Storable) (p : MigrationPhase) (hp : p.Storable) :
    (p.fail (some ⟨message.getD (properText (js "unknown")), code⟩)).Storable := by
  refine ⟨hp.1, ?_⟩
  intro e he
  obtain rfl := Option.some.inj he
  refine ⟨?_, h.2⟩
  cases message with
  | none => exact LiveValue.storable_str _
  | some m => exact h.1 m rfl

theorem text_storable (message : JsString) : (ThrownValue.text message).Storable := by
  refine ⟨?_, fun c hc => (by cases hc)⟩
  intro m hm
  obtain rfl := Option.some.inj hm
  exact LiveValue.storable_str message

theorem denied_storable (actionId : JsString) : (approvalDenied actionId).Storable := by
  constructor
  · intro m hm
    obtain rfl := Option.some.inj hm
    exact LiveValue.storable_str _
  · intro c hc
    obtain rfl := Option.some.inj hc
    exact LiveValue.storable_str _

/-- The state after an error that is not one of the handlers' or is marked as theirs. -/
theorem StateKnows.caught (h : StateKnows id log r.state) {message code : Option ProperValue}
    (hstorable : AllStorable log → (ThrownValue.error message code).Storable) :
    StateKnows id log (r.caught (.error message code)).state := by
  have hupdate := h.update r.phase (f := .fail (some ⟨message.getD (properText (js "unknown")), code⟩))
    (fun hsound p hp => storable_fail (hstorable hsound) p hp) (fun _ => rfl)
  exact ⟨hupdate.sameId, hupdate.storable, hupdate.outputs⟩

/-- The handler's own error is the error of its phase. -/
theorem recorded_caught (hat : InPhase log r.state r.phase) (message code : Option ProperValue) :
    Recorded (.threw (.error message code) :: log) (r.caught (.error message code)).state := by
  intro e he
  rcases List.mem_cons.mp he with heq | he
  · cases heq
    refine ⟨message, code, rfl, ?_⟩
    obtain ⟨p, hp⟩ : ∃ p, r.state.phases[r.phase]? = some p :=
      ⟨_, List.getElem?_eq_getElem hat.phase⟩
    have hfail := getElem?_updatePhase r.state r.phase
      (.fail (some ⟨message.getD (properText (js "unknown")), code⟩)) r.phase
    rw [hp, Option.map_some, if_pos rfl] at hfail
    exact ⟨_, List.mem_of_getElem? hfail, rfl⟩
  · exact absurd he (hat.fresh e)

/-- The run goes to the save after its `catch`. -/
theorem caught_knows {message code : Option ProperValue} (h : StateKnows id log r.state)
    (hstorable : AllStorable log → (ThrownValue.error message code).Storable) (hbehind : Behind host file)
    (hrecorded : Recorded log (r.caught (.error message code)).state) :
    RunKnows host id file log (r.caught (.error message code)) :=
  ⟨h.caught hstorable, hrecorded, fun hcontra => (by cases hcontra), hbehind, trivial⟩

theorem RunKnows.goMkdir (h : RunKnows host id file log r) {why : SavePoint}
    (hpoint : r.point = .saving why .mkdir) (now : JsString) :
    RunKnows host id file log (r.go host now) := by
  have hknows := h.point
  rw [hpoint] at hknows
  simp only [LiveRun.go, hpoint]
  cases hfile : signedFile host r.state with
  | ok raw =>
    refine ⟨h.state, ?_⟩
    cases why with
    | started => exact ⟨hknows.1, hknows.2.1, hfile⟩
    | entered => exact ⟨hknows.1, hknows.2.1, hfile⟩
    | left => exact ⟨hknows.1, hknows.2.1, hfile⟩
    | failed => exact ⟨hknows.1, hknows.2.1, hknows.2.2.1, hfile⟩
    | finished => exact ⟨hknows.1, hknows.2.1, hknows.2.2.1, hfile⟩
  | error message =>
    have hunsaved (raw : JsValue) : signedFile host r.state ≠ .ok raw := by
      rw [hfile]
      exact fun hcontra => (by cases hcontra)
    simp only [LiveRun.throw, hpoint]
    cases why with
    | started => exact ⟨h.state, .inFlight hknows.2.1 (signedFile_fails h.state hfile)⟩
    | entered =>
      exact caught_knows h.state (fun _ => text_storable message) hknows.2.1 hknows.1.fresh.recorded
    | left =>
      exact caught_knows h.state (fun _ => text_storable message) hknows.2.1
        (NothingThrown.recorded hknows.1)
    | failed => exact ⟨h.state, .unsaved hknows.2.1 hknows.2.2.1 hunsaved⟩
    | finished => exact ⟨h.state, .unsaved hknows.2.1 hknows.2.2.1 hunsaved⟩

theorem NothingThrown.cons {m : Mark} (hm : ∀ e, m ≠ .threw e) (h : NothingThrown log) :
    NothingThrown (m :: log) := by
  intro e he
  rcases List.mem_cons.mp he with heq | he
  · exact hm e heq.symm
  · exact h e he

theorem InPhase.cons {m : Mark} {k : ℕ} (hm : ∀ e, m ≠ .threw e) (h : InPhase log state k) :
    InPhase (m :: log) state k := ⟨h.fresh.cons hm, h.index, h.phase, h.status⟩

theorem Recorded.cons {m : Mark} (hm : ∀ e, m ≠ .threw e) (h : Recorded log state) :
    Recorded (m :: log) state := by
  intro e he
  rcases List.mem_cons.mp he with heq | he
  · exact absurd heq.symm (hm e)
  · exact h e he

theorem RunKnows.goSaved (h : RunKnows host id file log r) {why : SavePoint}
    (hpoint : r.point = .saving why .written) (now : JsString) :
    RunKnows host id file (r.invokes ++ log) (r.saved now why) := by
  have hknows := h.point
  rw [hpoint] at hknows
  have hnone (hwhy : why ≠ .entered) : r.invokes = [] := by
    rw [LiveRun.invokes, hpoint]
    cases why with
    | entered => exact absurd rfl hwhy
    | _ => rfl
  cases why with
  | started =>
    obtain ⟨hfresh, hflight, hwritten⟩ := hknows
    rw [hnone fun hcontra => (by cases hcontra)]
    exact advance_knows h.state hfresh (fun _ => ⟨_, hwritten, hflight⟩)
      (fun hstatus => absurd hflight hstatus) now
  | left =>
    obtain ⟨hfresh, hwritten⟩ := hknows
    rw [hnone fun hcontra => (by cases hcontra)]
    exact advance_knows h.state hfresh (fun hflight => ⟨_, hwritten, hflight⟩)
      (fun hstatus => .written hstatus hwritten hfresh.recorded) now
  | failed =>
    rw [hnone fun hcontra => (by cases hcontra)]
    exact ⟨h.state, .written hknows.2.1 hknows.2.2 hknows.1⟩
  | finished =>
    rw [hnone fun hcontra => (by cases hcontra)]
    exact ⟨h.state, .written hknows.2.1 hknows.2.2 hknows.1⟩
  | entered =>
    obtain ⟨hat, hbehind, _⟩ := hknows
    have hentered (log' : List Mark) (hstate : StateKnows id log' r.state)
        (hin : InPhase log' r.state r.phase) : RunKnows host id file log' (r.saved now .entered) := by
      refine ⟨hstate, ?_⟩
      rw [LiveRun.saved]
      split_ifs
      · exact ⟨hin, hbehind⟩
      · exact ⟨hin, hbehind⟩
    rcases invokes_cases r with hnone | ⟨name, hname⟩
    · rw [hnone]
      exact hentered log h.state hat
    · rw [hname]
      exact hentered _ (h.state.cons fun v hv => (by cases hv)) (hat.cons fun e he => (by cases he))

theorem RunKnows.land {phase : ℕ} {why : SavePoint} {raw : JsValue}
    (h : RunKnows host id file log ⟨state, phase, .saving why (.writing raw)⟩) :
    RunKnows host id (.whole state raw)
      (.persisted state.currentPhaseIndex state.overallStatus :: log)
      ⟨state, phase, .saving why .written⟩ := by
  have hknows := h.point
  have hquiet (e : ThrownValue) : Mark.persisted state.currentPhaseIndex state.overallStatus ≠ .threw e :=
    fun hcontra => (by cases hcontra)
  refine ⟨h.state.cons fun v hv => (by cases hv), ?_⟩
  cases why with
  | started =>
    obtain ⟨hfresh, hflight, hraw⟩ := hknows
    exact ⟨hfresh.cons hquiet, hflight, raw, rfl, hraw⟩
  | entered =>
    obtain ⟨hat, _, hraw⟩ := hknows
    exact ⟨hat.cons hquiet, ⟨state, ⟨raw, rfl, hraw⟩, hat.status⟩, raw, rfl, hraw⟩
  | left =>
    obtain ⟨hfresh, _, hraw⟩ := hknows
    exact ⟨hfresh.cons hquiet, raw, rfl, hraw⟩
  | failed =>
    obtain ⟨hrecorded, hstatus, _, hraw⟩ := hknows
    exact ⟨hrecorded.cons hquiet, hstatus, raw, rfl, hraw⟩
  | finished =>
    obtain ⟨hrecorded, hstatus, _, hraw⟩ := hknows
    exact ⟨hrecorded.cons hquiet, hstatus, raw, rfl, hraw⟩

theorem RunKnows.go (h : RunKnows host id file log r) (hready : r.ready) (now : JsString) :
    RunKnows host id file (r.invokes ++ log) (r.go host now) := by
  cases hpoint : r.point with
  | saving why step =>
    cases step with
    | mkdir =>
      have hinvokes : r.invokes = [] := by
        rw [LiveRun.invokes, hpoint]
        cases why <;> rfl
      rw [hinvokes]
      exact h.goMkdir hpoint now
    | writing raw =>
      rw [LiveRun.ready, hpoint] at hready
      exact hready.elim
    | written =>
      have hgo : r.go host now = r.saved now why := by rw [LiveRun.go, hpoint]
      rw [hgo]
      exact h.goSaved hpoint now
  | _ =>
    rw [LiveRun.ready, hpoint] at hready
    exact hready.elim

/-- The phase is left with the state that it has made. -/
theorem leave_knows (h : StateKnows id log r.state) (hfresh : NothingThrown log) (hbehind : Behind host file)
    (now : JsString) : RunKnows host id file log (r.leave now) := by
  have hupdate := h.update r.phase (f := .complete now) (fun _ _ hp => hp) fun _ => rfl
  refine ⟨⟨hupdate.sameId, hupdate.storable, ?_⟩, hfresh, hbehind, trivial⟩
  intro v hv
  obtain ⟨k, p, hk, hp, hout⟩ := hupdate.outputs v hv
  exact ⟨k, p, Nat.lt_succ_of_lt hk, hp, hout⟩

/-- The output of a handler is stored in its phase, which no later phase changes. -/
theorem RunKnows.answered (h : RunKnows host id file log r) (hpoint : r.point = .handling)
    (output : ProperValue) (now : JsString) :
    RunKnows host id file (.returned output :: log) (r.answered output now) := by
  have hknows := h.point
  rw [hpoint] at hknows
  obtain ⟨hat, hbehind⟩ := hknows
  have hfresh : NothingThrown (.returned output :: log) := hat.fresh.cons fun e he => (by cases he)
  rw [LiveRun.answered]
  generalize (if r.phaseName = some MigrationPhaseName.execute then OverallStatus.complete
    else (r.state.updatePhase r.phase (.answer output)).overallStatus) = status
  have hsame : (r.state.updatePhase r.phase (.answer output)).migrationId = id := h.state.sameId
  have hstorable (hsound : AllStorable (.returned output :: log)) :
      (r.state.updatePhase r.phase (.answer output)).toMigration.Storable := by
    refine storable_updatePhase (h.state.storable hsound.tail) _ ?_
    intro p hp
    refine ⟨fun w hw => ?_, hp.2⟩
    obtain rfl := Option.some.inj hw
    exact hsound _ (List.mem_cons_self ..)
  refine ⟨⟨hsame, ?_, ?_⟩, hfresh, hbehind, trivial⟩
  · intro hsound
    exact storable_updatePhase (hstorable hsound) r.phase fun p hp => hp
  · intro v hv
    change ∃ k p, k < r.state.currentPhaseIndex+1 ∧
      ((r.state.updatePhase r.phase (.answer output)).updatePhase r.phase (.complete now)).phases[k]? =
        some p ∧ p.output = some v
    rcases List.mem_cons.mp hv with heq | hv
    · cases heq
      obtain ⟨p, hp⟩ : ∃ p, r.state.phases[r.phase]? = some p :=
        ⟨_, List.getElem?_eq_getElem hat.phase⟩
      refine ⟨r.phase, (p.answer output).complete now, Nat.lt_succ_of_le hat.index.ge, ?_, rfl⟩
      rw [getElem?_updatePhase, getElem?_updatePhase, hp, Option.map_some, Option.map_some,
        if_pos rfl, if_pos rfl]
    · obtain ⟨k, p, hk, hp, hout⟩ := h.state.outputs v hv
      have hne : r.phase ≠ k := by
        rw [← hat.index]
        exact hk.ne'
      refine ⟨k, p, Nat.lt_succ_of_lt hk, ?_, hout⟩
      rw [getElem?_updatePhase, getElem?_updatePhase, hp, Option.map_some, Option.map_some,
        if_neg hne, if_neg hne]

/-- A step of the approval phase that is answered. -/
theorem RunKnows.asks (h : RunKnows host id file log r) {m : Mark} (hv : ∀ v, m ≠ .returned v)
    (he : ∀ e, m ≠ .threw e) {point : RunPoint} (hat : InPhase log r.state r.phase)
    (hbehind : Behind host file)
    (hpoint : InPhase (m :: log) r.state r.phase ∧ Behind host file →
      PointKnows host id file (m :: log) { r with point := point } point) :
    RunKnows host id file (m :: log) { r with point := point } :=
  ⟨h.state.cons hv, hpoint ⟨hat.cons he, hbehind⟩⟩

/-- What a handler throws is the error of its phase, or leaves the migration in flight. -/
theorem RunKnows.threw (h : RunKnows host id file log r) (hasks : r.asks) (e : ThrownValue) :
    RunKnows host id file (.threw e :: log) (r.throw e) := by
  have hthrow : r.throw e = r.caught e ∧ InPhase log r.state r.phase ∧ Behind host file := by
    have hknows := h.point
    cases hpoint : r.point with
    | saving why step =>
      rw [LiveRun.asks, hpoint] at hasks
      exact hasks.elim
    | settled =>
      rw [LiveRun.asks, hpoint] at hasks
      exact hasks.elim
    | _ =>
      rw [hpoint] at hknows
      exact ⟨by simp only [LiveRun.throw, hpoint], hknows⟩
  obtain ⟨hcaught, hat, hbehind⟩ := hthrow
  rw [hcaught]
  have hstate : StateKnows id (.threw e :: log) r.state := h.state.cons fun v hv => (by cases hv)
  cases e with
  | nullish =>
    refine ⟨hstate.update r.phase (fun _ p hp => hp) fun _ => rfl, .inFlight hat.status ?_⟩
    intro hprovided
    exact hprovided.sound _ (List.mem_cons_self ..)
  | error message code =>
    refine caught_knows hstate (fun hsound => ?_) hbehind (recorded_caught hat message code)
    exact hsound _ (List.mem_cons_self ..)

/-! ### The call -/

/-- A resume that has not read its file, or goes on from what it has read. -/
def Resumes (host : HmacHost) (id : JsString) (file : StateFile) (log : List Mark) : Prop :=
  log = [] ∧ ∃ saved, Written host file saved ∧ saved.toMigration.Storable ∧ saved.migrationId = id

def MigrationCall.Knows (host : HmacHost) (id : JsString) (file : StateFile) (log : List Mark) :
    MigrationCall → Prop
  | .reading => Resumes host id file log
  | .read found => found = file ∧ Resumes host id file log
  | .run r => RunKnows host id file log r
  | _ => True

variable {s : MigrationSystem}

/-- The state that was saved is loaded. -/
theorem Written.load {saved : MigrationState} (h : Written host file saved)
    (hstorable : saved.toMigration.Storable) (id : JsString) :
    file.load host id = some saved.reloaded := by
  obtain ⟨raw, rfl, hraw⟩ := h
  have hlive := MigrationState.storable_live.mpr hstorable
  obtain ⟨payload, hload⟩ := loads_of_faithful id (signedFile_iff.mp hraw) hlive.faithful
  rw [StateFile.load, hload]

theorem Resumes.go (h : Resumes host id file log) (now : JsString) :
    ∃ state, file.load host id = some state ∧ RunKnows host id file log (advance state now) := by
  obtain ⟨rfl, saved, hwritten, hstorable, hid⟩ := h
  refine ⟨_, hwritten.load hstorable id, ?_⟩
  have hstate : StateKnows id [] saved.reloaded :=
    ⟨hid, fun _ => MigrationState.storable_reloaded hstorable, fun v hv => absurd hv List.not_mem_nil⟩
  exact advance_knows hstate (fun e => List.not_mem_nil) (fun hflight => ⟨saved, hwritten, hflight⟩)
    (fun hstatus => .loaded saved hwritten hstorable hstatus rfl rfl) now

/-- The run has gone from one await to the next. -/
theorem knows_answerCall (h : s.call.Knows host id s.file s.log) {point : RunPoint}
    (ha : s.call.at point) (marks : List Mark) {f : LiveRun → LiveRun}
    (hf : ∀ r, RunKnows host id s.file s.log r → r.point = point →
      RunKnows host id s.file (marks ++ s.log) (f r)) :
    (s.answerCall marks f s.call).call.Knows host id (s.answerCall marks f s.call).file
      (s.answerCall marks f s.call).log := by
  cases hc : s.call with
  | run r =>
    rw [hc] at h ha
    exact hf r h ha
  | _ =>
    rw [hc] at ha
    exact ha.elim

theorem knows_next {e : MigrationEvent} (h : s.call.Knows host id s.file s.log)
    (ha : (migrationMachine host id).allowed s e) (hevent : Undisturbed s e) :
    ((migrationMachine host id).next s e).call.Knows host id
      ((migrationMachine host id).next s e).file ((migrationMachine host id).next s e).log := by
  cases e with
  | read =>
    have hreading : s.call = .reading := ha
    rw [hreading] at h
    exact ⟨rfl, h⟩
  | go now =>
    rcases ha with ⟨found, hread⟩ | ⟨r, hrun, hready⟩
    · rw [hread] at h
      obtain ⟨rfl, hresumes⟩ := h
      obtain ⟨state, hload, hknows⟩ := hresumes.go now
      simp only [migrationMachine, hread, MigrationSystem.goCall, hload]
      exact hknows
    · rw [hrun] at h
      simp only [migrationMachine, hrun, MigrationSystem.goCall]
      exact RunKnows.go h hready now
  | land =>
    have hwrites : s.call.writes := ha
    cases hc : s.call with
    | run r =>
      obtain ⟨state, phase, point⟩ := r
      rw [hc] at h hwrites
      cases point with
      | saving why step =>
        cases step with
        | writing raw =>
          simp only [migrationMachine, hc, MigrationSystem.landCall]
          exact RunKnows.land h
        | _ => exact hwrites.elim
      | _ => exact hwrites.elim
    | _ =>
      rw [hc] at hwrites
      exact hwrites.elim
  | returns output now =>
    exact knows_answerCall h ha _ fun r hr hpoint => hr.answered hpoint output now
  | verified =>
    refine knows_answerCall h ha _ fun r hr hpoint => ?_
    have hknows := hr.point
    rw [hpoint] at hknows
    exact hr.asks (fun v hv => (by cases hv)) (fun e he => (by cases he)) hknows.1 hknows.2
      fun hat => hat
  | delayed =>
    refine knows_answerCall h ha _ fun r hr hpoint => ?_
    have hknows := hr.point
    rw [hpoint] at hknows
    exact hr.asks (fun v hv => (by cases hv)) (fun e he => (by cases he)) hknows.1 hknows.2
      fun hat => hat
  | confirms accepted now =>
    cases accepted with
    | true =>
      refine knows_answerCall h ha _ fun r hr hpoint => ?_
      have hknows := hr.point
      rw [hpoint] at hknows
      exact leave_knows (hr.state.cons fun v hv => (by cases hv))
        (hknows.1.fresh.cons fun e he => (by cases he)) hknows.2 now
    | false =>
      refine knows_answerCall h ha _ fun r hr hpoint => ?_
      have hknows := hr.point
      rw [hpoint] at hknows
      exact caught_knows hr.state (fun _ => denied_storable _) hknows.2 hknows.1.fresh.recorded
  | throws e =>
    obtain ⟨r, hrun, hasks⟩ := ha
    rw [hrun] at h
    simp only [migrationMachine, hrun, MigrationSystem.answerCall]
    exact RunKnows.threw h hasks e
  | _ => exact hevent.elim

/-! ### What is on disk -/

theorem OverallStatus.text_inj {a b : OverallStatus} (h : a.text = b.text) : a = b := by
  revert h
  cases a <;> cases b <;> decide

/-- What is written provides a secret and a ULID. -/
theorem Written.secret {saved : MigrationState} (h : Written host file saved) :
    (∃ key, host.getSecret = .ok key) ∧ isUlid saved.migrationId = true := by
  obtain ⟨raw, _, hraw⟩ := h
  obtain ⟨signed, hsign, hid, _⟩ := saveMigrationState_iff.mp (signedFile_iff.mp hraw)
  obtain ⟨text, key, _, hkey, _⟩ := signPayload_iff.mp hsign
  exact ⟨⟨key, hkey⟩, hid⟩

theorem Written.signable {saved : MigrationState} (h : Written host file saved) :
    saved.live.Signable := by
  obtain ⟨raw, _, hraw⟩ := h
  obtain ⟨signed, hsign, _⟩ := saveMigrationState_iff.mp (signedFile_iff.mp hraw)
  obtain ⟨text, _, htext, _⟩ := signPayload_iff.mp hsign
  exact ⟨text, htext⟩

/-- The status in a file that loads is the one that was saved. -/
theorem Written.status {saved : MigrationState} (h : Written host file saved)
    (hpersisted : Persisted host id file state) : saved.overallStatus = state.overallStatus := by
  obtain ⟨raw, rfl, hraw⟩ := h
  obtain ⟨saved', raw', payload, hfile, hload, hstatus⟩ := hpersisted.loads
  cases hfile
  have hsaved := (loaded_property (signedFile_iff.mp hraw) hload).1
  rw [hstatus] at hsaved
  exact OverallStatus.text_inj (JsValue.str.inj hsaved).symm

/-- A file that a state was written to persists it when the state can be stored. -/
theorem Written.persisted {saved : MigrationState} (h : Written host file saved)
    (hstorable : saved.toMigration.Storable) (hterminal : state.overallStatus ≠ .inFlight)
    (hstatus : saved.overallStatus = state.overallStatus) : Persisted host id file state := by
  obtain ⟨raw, rfl, hraw⟩ := h
  have hlive := MigrationState.storable_live.mpr hstorable
  obtain ⟨payload, hload⟩ := loads_of_faithful id (signedFile_iff.mp hraw) hlive.faithful
  have hproperty := (loaded_property (signedFile_iff.mp hraw) hload).1
  exact ⟨hterminal, saved, raw, payload, rfl, hload, by rw [hproperty, hstatus]⟩

/-- In a state that can be stored, what the handlers did can be. -/
theorem sound_of_storable (h : StateKnows id log state) (hrecorded : Recorded log state)
    (hstorable : state.toMigration.Storable) : AllStorable log := by
  intro m hm
  cases m with
  | returned v =>
    obtain ⟨k, p, _, hp, hout⟩ := h.outputs v hm
    exact (hstorable.2 p (List.mem_of_getElem? hp)).1 v hout
  | threw e =>
    obtain ⟨message, code, rfl, p, hp, herror⟩ := hrecorded e hm
    have hboth := (hstorable.2 p hp).2 _ herror
    refine ⟨?_, hboth.2⟩
    rintro m rfl
    exact hboth.1
  | _ => trivial

theorem SettledAs.persisted_iff (h : SettledAs host id file log state)
    (hstate : StateKnows id log state) (hcollision : NoCollision host state.live) :
    Persisted host id file state ↔ Provided host id log := by
  cases h with
  | inFlight hflight hprovided =>
    exact ⟨fun hpersisted => absurd hflight hpersisted.terminal, fun h => absurd h hprovided⟩
  | unsaved hstatus hbehind hfile =>
    obtain ⟨saved, hwritten, hflight⟩ := hbehind
    constructor
    · intro hpersisted
      exact absurd ((hwritten.status hpersisted).symm.trans hflight) hstatus
    · intro hprovided
      obtain ⟨key, hkey⟩ := hprovided.secret
      obtain ⟨raw, hraw⟩ := signedFile_of_storable hkey (by rw [hstate.sameId]; exact hprovided.ulid)
        (hstate.storable hprovided.sound)
      exact absurd hraw (hfile raw)
  | written hstatus hwritten hrecorded =>
    constructor
    · intro hpersisted
      obtain ⟨saved, raw, payload, rfl, hload, _⟩ := hpersisted.loads
      have hsigned := hwritten.signable
      obtain ⟨hkey, hid⟩ := hwritten.secret
      obtain ⟨raw', hfile, hraw⟩ := hwritten
      cases hfile
      have hfaithful := (loads_iff (signedFile_iff.mp hraw) hcollision).mp ⟨payload, hload⟩
      have hstorable := MigrationState.storable_live.mp ⟨hsigned, hfaithful⟩
      exact ⟨hkey, by rw [← hstate.sameId]; exact hid, sound_of_storable hstate hrecorded hstorable⟩
    · intro hprovided
      exact hwritten.persisted (hstate.storable hprovided.sound) hstatus rfl
  | loaded saved hwritten hstorable hstatus hs hlog =>
    subst hs hlog
    obtain ⟨hkey, hid⟩ := hwritten.secret
    have hsound : AllStorable [] := fun m hm => absurd hm List.not_mem_nil
    have hpersisted : Persisted host id file saved.reloaded :=
      hwritten.persisted hstorable hstatus rfl
    exact ⟨fun _ => ⟨hkey, by rw [← hstate.sameId]; exact hid, hsound⟩, fun _ => hpersisted⟩

/-! ### Later resumes -/

/-- The file has a terminal state, and no call does more than read it. -/
structure Over (host : HmacHost) (file : StateFile) (log : List Mark) (s : MigrationSystem) :
    Prop where
  same : s.file = file
  log : s.log = log
  cancels : s.cancels = []
  call : s.call.idle ∨ s.call = .reading ∨ s.call = .read file

/-- What was terminal when it was written is loaded as terminal. -/
theorem Written.load_terminal {saved : MigrationState} (h : Written host file saved)
    (hstatus : saved.overallStatus ≠ .inFlight) (hload : file.load host id = some state) :
    state.overallStatus ≠ .inFlight := by
  obtain ⟨raw, rfl, _⟩ := h
  simp only [StateFile.load] at hload
  cases hraw : loadMigrationState host id raw with
  | error message =>
    rw [hraw] at hload
    cases hload
  | ok payload =>
    rw [hraw] at hload
    obtain rfl := Option.some.inj hload
    exact hstatus

/-- A settled call waits for nothing. -/
theorem idle_asks_nothing {c : MigrationCall} (h : c.idle) :
    ¬ c.writes ∧ (∀ point, point ≠ .settled → ¬ c.at point) ∧
      (∀ r, c = .run r → ¬ r.ready ∧ ¬ r.saves ∧ ¬ r.asks) := by
  cases c with
  | run r =>
    obtain ⟨state, phase, point⟩ := r
    obtain rfl : point = .settled := h
    refine ⟨fun hcontra => hcontra, fun point hpoint hat => hpoint hat.symm, ?_⟩
    intro r hr
    cases hr
    exact ⟨fun hcontra => hcontra, fun hcontra => hcontra, fun hcontra => hcontra⟩
  | reading => exact h.elim
  | read found => exact h.elim
  | _ => exact ⟨fun hcontra => hcontra, fun _ _ hat => hat, fun r hr => (by cases hr)⟩

theorem Over.next {saved : MigrationState} (hwritten : Written host file saved)
    (hstatus : saved.overallStatus ≠ .inFlight) (h : Over host file log s) {e : MigrationEvent}
    (ha : (migrationMachine host id).allowed s e) (hno : NoCancel s e) :
    Over host file log ((migrationMachine host id).next s e) := by
  have hstays {call : MigrationCall}
      (hcall : call.idle ∨ call = .reading ∨ call = .read file) :
      Over host file log { s with call := call } := ⟨h.same, h.log, h.cancels, hcall⟩
  have hat {point : RunPoint} (hpoint : point ≠ .settled) : ¬ s.call.at point := by
    rcases h.call with hidle | hreading | hread
    · exact (idle_asks_nothing hidle).2.1 point hpoint
    · rw [hreading]
      exact fun hcontra => hcontra
    · rw [hread]
      exact fun hcontra => hcontra
  -- no call that runs after the end writes: it can only load the file and find it settled
  have hwrites : ¬ s.call.writes := by
    rcases h.call with hidle | hreading | hread
    · exact (idle_asks_nothing hidle).1
    · rw [hreading]
      exact fun hcontra => hcontra
    · rw [hread]
      exact fun hcontra => hcontra
  have hran {r : LiveRun} (hrun : s.call = .run r) : s.call.idle := by
    rcases h.call with hidle | hreading | hread
    · exact hidle
    · rw [hrun] at hreading
      cases hreading
    · rw [hrun] at hread
      cases hread
  cases e with
  | resume => exact hstays (.inr (.inl rfl))
  | read =>
    refine hstays (.inr (.inr ?_))
    rw [h.same]
  | go now =>
    rcases ha with ⟨found, hfound⟩ | ⟨r, hrun, hready⟩
    · have hread : s.call = .read file := by
        rcases h.call with hidle | hreading | hread
        · rw [hfound] at hidle
          exact hidle.elim
        · rw [hfound] at hreading
          cases hreading
        · exact hread
      simp only [migrationMachine, hread, MigrationSystem.goCall]
      cases hload : file.load host id with
      | none => exact hstays (.inl trivial)
      | some state =>
        refine hstays (.inl ?_)
        rw [advance_settled (hwritten.load_terminal hstatus hload)]
        rfl
    · exact absurd hready ((idle_asks_nothing (hran hrun)).2.2 r hrun).1
  | tear => exact absurd ha hwrites
  | land => exact absurd ha hwrites
  | refuse message code =>
    rcases ha with hreading | ⟨r, hrun, hsaves⟩
    · simp only [migrationMachine, hreading, MigrationSystem.refuseCall]
      exact hstays (.inl trivial)
    · exact absurd hsaves ((idle_asks_nothing (hran hrun)).2.2 r hrun).2.1
  | returns output now => exact absurd ha (hat fun hcontra => (by cases hcontra))
  | verified => exact absurd ha (hat fun hcontra => (by cases hcontra))
  | delayed => exact absurd ha (hat fun hcontra => (by cases hcontra))
  | confirms accepted now => exact absurd ha (hat fun hcontra => (by cases hcontra))
  | throws e =>
    obtain ⟨r, hrun, hasks⟩ := ha
    exact absurd hasks ((idle_asks_nothing (hran hrun)).2.2 r hrun).2.2
  | crash => exact ⟨h.same, h.log, rfl, .inl trivial⟩
  | cancel => exact hno.elim
  | _ => exact absurd trivial (not_ofCancel h.cancels ha)

/-- A call that is not disturbed has no cancel beside it. -/
theorem cancels_next {e : MigrationEvent} (h : s.cancels = []) (hevent : Undisturbed s e) :
    ((migrationMachine host id).next s e).cancels = [] := by
  have hanswer (marks : List Mark) (f : LiveRun → LiveRun) :
      (s.answerCall marks f s.call).cancels = [] := by
    cases s.call <;> exact h
  cases e with
  | read => exact h
  | go now =>
    simp only [migrationMachine]
    cases s.call with
    | read found =>
      simp only [MigrationSystem.goCall]
      cases found.load host id <;> exact h
    | _ => exact h
  | land =>
    simp only [migrationMachine, MigrationSystem.landCall]
    split
    · exact h
    · exact h
  | returns output now => exact hanswer _ _
  | verified => exact hanswer _ _
  | delayed => exact hanswer _ _
  | confirms accepted now =>
    cases accepted with
    | true => exact hanswer _ _
    | false => exact hanswer _ _
  | throws e => exact hanswer _ _
  | _ => exact hevent.elim

/-- When an undisturbed `start` or `resume` settles, the file has the terminal status of the
state in memory exactly when there is a secret, the id is a ULID, and everything that the
handlers have returned or thrown can be stored. Then no later resume invokes or writes
anything. -/
theorem outcome_persisted_iff (host : HmacHost) (id : JsString) (s₀ s : MigrationSystem) (r : LiveRun)
    (hbegins : Begins host id s₀) (h : (migrationMachine host id).Reaches Undisturbed s₀ s)
    (hcall : s.call = .run r) (hsettled : r.point = .settled)
    (hcollision : NoCollision host r.state.live) :
    (Persisted host id s.file r.state ↔ Provided host id s.log) ∧
      (Persisted host id s.file r.state →
        ∀ u, (migrationMachine host id).Reaches NoCancel s u → u.log = s.log) := by
  have hstart : s₀.call.Knows host id s₀.file s₀.log ∧ s₀.cancels = [] := by
    cases hbegins with
    | start file plan hplan =>
      refine ⟨⟨⟨rfl, fun _ => hplan, fun v hv => absurd hv List.not_mem_nil⟩, ?_⟩, rfl⟩
      exact ⟨fun e => List.not_mem_nil, rfl, trivial⟩
    | resume saved raw hraw hstorable =>
      exact ⟨⟨rfl, saved, ⟨raw, rfl, hraw⟩, hstorable, rfl⟩, rfl⟩
  obtain ⟨hknows, hcancels⟩ := h.invariant
    (I := fun x => x.call.Knows host id x.file x.log ∧ x.cancels = []) hstart
    fun _ _ hx ha hevent => ⟨knows_next hx.1 ha hevent, cancels_next hx.2 hevent⟩
  rw [hcall] at hknows
  have hpoint := hknows.point
  rw [hsettled] at hpoint
  refine ⟨SettledAs.persisted_iff hpoint hknows.state hcollision, ?_⟩
  intro hpersisted u hu
  obtain ⟨saved, hwritten, hstatus⟩ : ∃ saved, Written host s.file saved ∧
      saved.overallStatus ≠ .inFlight := by
    cases hpoint with
    | inFlight hflight _ => exact absurd hflight hpersisted.terminal
    | written hstatus hwritten _ => exact ⟨_, hwritten, hstatus⟩
    | unsaved hstatus hbehind _ =>
      obtain ⟨saved, hwritten, hflight⟩ := hbehind
      exact absurd ((hwritten.status hpersisted).symm.trans hflight) hstatus
    | loaded saved hwritten _ hstatus _ _ => exact ⟨saved, hwritten, hstatus⟩
  have hidle : s.call.idle := by
    rw [hcall]
    exact hsettled
  have hover : Over host s.file s.log s := ⟨rfl, rfl, hcancels, .inl hidle⟩
  exact (hu.invariant hover fun _ _ hx ha hno => hx.next hwritten hstatus ha hno).log

/-! ### Handlers that fail and handlers that return nothing -/

def brokenPipe : ThrownValue := .text (js "broken pipe")

/-- The sample after its first handler has failed. -/
def brokenState : MigrationState := (LiveRun.caught ⟨identifying, 0, .handling⟩ brokenPipe).state

theorem brokenState_storable : brokenState.toMigration.Storable :=
  storable_updatePhase identifying_storable 0 fun p hp =>
    storable_fail (text_storable (js "broken pipe")) p hp

/-- The sample fails in its first phase, and its file says so. -/
theorem outcome_persisted_broken : ∃ s r,
    (migrationMachine sampleHost.toHmacHost samplePlan.migrationId).Reaches Undisturbed
      (startMigration .missing samplePlan) s ∧ s.call = .run r ∧ r.point = .settled ∧
    (Persisted sampleHost.toHmacHost samplePlan.migrationId s.file r.state ↔
      Provided sampleHost.toHmacHost samplePlan.migrationId s.log) := by
  obtain ⟨s, raw, hrun, _, rfl⟩ := sample_invoked (C := Undisturbed) fun _ => ⟨trivial, trivial⟩
  obtain ⟨raw', hraw'⟩ := signedFile_of_storable sample_secret (by decide)
    brokenState_storable
  have hthrows := hrun.step (e := MigrationEvent.throws brokenPipe) ⟨_, rfl, trivial⟩ trivial
  have hfailing : ((migrationMachine sampleHost.toHmacHost samplePlan.migrationId).next
      ⟨.whole identifying raw, .run ⟨identifying, 0, .handling⟩, [],
        [.invoked .identifyResources, .persisted 0 .inFlight, .persisted 0 .inFlight]⟩
      (.throws brokenPipe)).call = .run ⟨brokenState, 0, .saving .failed .mkdir⟩ := rfl
  have hsaved := reaches_saved hthrows hfailing hraw' sampleNow fun _ => ⟨trivial, trivial⟩
  have hsettled := hsaved.step (e := MigrationEvent.go sampleNow) (.inr ⟨_, rfl, trivial⟩) trivial
  have hfaithful := (MigrationState.storable_live.mpr brokenState_storable).faithful
  refine ⟨_, ⟨brokenState, 0, .settled⟩, hsettled, rfl, rfl, ?_⟩
  exact (outcome_persisted_iff sampleHost.toHmacHost samplePlan.migrationId _ _ _
    (.start .missing samplePlan samplePlan_storable) hsettled rfl rfl
    (noCollision_of_faithful hfaithful)).1

/-- What `phase.output = await handler()` stores when the handler returns nothing. -/
def nothing : ProperValue := ⟨.undefined, rfl⟩

theorem signable_output (h : state.live.Signable) {p : MigrationPhase} (hp : p ∈ state.phases)
    {v : ProperValue} (hv : p.output = some v) : v.val.Signable := by
  have hphases : (js "phases", .arr ((state.phases.map MigrationPhase.live).map some)) ∈
      state.fields := by
    simp [MigrationState.fields]
  have hphase := LiveValue.signable_arr.mp (LiveValue.signable_obj.mp h _ hphases) p.live
    (List.mem_map_of_mem hp)
  refine LiveValue.signable_obj.mp hphase (js "output", v.val) ?_
  simp [hv, optField]

/-- A state with an output of `undefined` is not saved. -/
theorem nothing_unsaved {p : MigrationPhase} (hp : p ∈ state.phases) (hv : p.output = some nothing) :
    ∃ message, signedFile host state = .error message := by
  cases hfile : signedFile host state with
  | error message => exact ⟨message, rfl⟩
  | ok raw =>
    have hwritten : Written host (.whole state raw) state := ⟨raw, rfl, hfile⟩
    obtain ⟨t, ht⟩ := signable_output hwritten.signable hp hv
    cases ht

/-- The first phase of the sample is left with nothing as its output, and then failed. -/
def emptyLeft : LiveRun := LiveRun.answered ⟨identifying, 0, .handling⟩ nothing sampleNow

def emptyFailed (message : JsString) : LiveRun := emptyLeft.caught (.text message)

theorem emptyLeft_unsaved :
    ∃ message, signedFile sampleHost.toHmacHost emptyLeft.state = .error message :=
  nothing_unsaved (List.mem_cons_self ..) rfl

theorem emptyFailed_unsaved (message : JsString) :
    ∃ message', signedFile sampleHost.toHmacHost (emptyFailed message).state = .error message' :=
  nothing_unsaved (List.mem_cons_self ..) rfl

/-- A handler that returns nothing leaves the migration in flight on disk. -/
theorem outcome_persisted_fails : ¬ ∀ (host : HmacHost) (plan : Migration) (s : MigrationSystem)
    (r : LiveRun), (∃ key, host.getSecret = .ok key) → isUlid plan.migrationId = true →
      plan.Storable →
      (migrationMachine host plan.migrationId).Reaches Undisturbed (startMigration .missing plan) s →
      s.call = .run r → r.point = .settled → Persisted host plan.migrationId s.file r.state := by
  intro h
  obtain ⟨s, raw, hrun, hraw, rfl⟩ := sample_invoked (C := Undisturbed) fun _ => ⟨trivial, trivial⟩
  obtain ⟨message, hleft⟩ := emptyLeft_unsaved
  obtain ⟨message', hfailed⟩ := emptyFailed_unsaved message
  have hreturns := hrun.step (e := MigrationEvent.returns nothing sampleNow) rfl trivial
  have hleaving : ((migrationMachine sampleHost.toHmacHost samplePlan.migrationId).next
      ⟨.whole identifying raw, .run ⟨identifying, 0, .handling⟩, [],
        [.invoked .identifyResources, .persisted 0 .inFlight, .persisted 0 .inFlight]⟩
      (.returns nothing sampleNow)).call = .run ⟨emptyLeft.state, 0, .saving .left .mkdir⟩ := rfl
  have hcaught := reaches_unsaved hreturns hleaving hleft sampleNow fun _ => trivial
  have hfailing : (MigrationSystem.setRun ((migrationMachine sampleHost.toHmacHost
      samplePlan.migrationId).next ⟨.whole identifying raw, .run ⟨identifying, 0, .handling⟩, [],
        [.invoked .identifyResources, .persisted 0 .inFlight, .persisted 0 .inFlight]⟩
      (.returns nothing sampleNow)) (emptyFailed message)).call =
        .run ⟨(emptyFailed message).state, 0, .saving .failed .mkdir⟩ := rfl
  have hsettled := reaches_unsaved hcaught hfailing hfailed sampleNow fun _ => trivial
  have hpersisted := h sampleHost.toHmacHost samplePlan _ _ ⟨_, rfl⟩ (by decide) samplePlan_storable
    hsettled rfl rfl
  have hwritten : Written sampleHost.toHmacHost (.whole identifying raw) identifying :=
    ⟨raw, rfl, hraw⟩
  have hstatus := hwritten.status hpersisted
  cases hstatus

end Homelab
