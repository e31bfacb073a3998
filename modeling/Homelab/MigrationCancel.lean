import Homelab.MigrationOutcome

/-! A cancel wins over a run, as long as its write lands when no run has anything left to
write. -/
namespace Homelab
open Js

/-! ### Logs of cancels -/

/-- A cancelled state was persisted. -/
def Landed (log : List Mark) : Prop := ∃ index, .persisted index .cancelled ∈ log

/-- A cancel resolves after its state was persisted, and nothing is invoked after one was. -/
def CancelOrder : List Mark → Prop
  | [] => True
  | .cancelled :: log => Landed log ∧ CancelOrder log
  | .invoked _ :: log => ¬ Landed log ∧ CancelOrder log
  | _ :: log => CancelOrder log

theorem Landed.cons {log : List Mark} (m : Mark) (h : Landed log) : Landed (m :: log) := by
  obtain ⟨index, hindex⟩ := h
  exact ⟨index, List.mem_cons_of_mem _ hindex⟩

theorem Landed.append {log : List Mark} (later : List Mark) (h : Landed log) :
    Landed (later ++ log) := by
  induction later with
  | nil => exact h
  | cons m later ih => exact ih.cons m

theorem CancelOrder.tail {m : Mark} {log : List Mark} (h : CancelOrder (m :: log)) : CancelOrder log := by
  cases m with
  | cancelled => exact h.2
  | invoked name => exact h.2
  | _ => exact h

theorem CancelOrder.landed {later before : List Mark} (h : CancelOrder (later ++ .cancelled :: before)) :
    Landed before := by
  induction later with
  | nil => exact h.1
  | cons m later ih => exact ih (CancelOrder.tail h)

theorem CancelOrder.not_invoked {later before : List Mark}
    (h : CancelOrder (later ++ before)) (hlanded : Landed before) (name : MigrationPhaseName) :
    .invoked name ∉ later := by
  induction later with
  | nil => exact List.not_mem_nil
  | cons m later ih =>
    intro hmem
    rcases List.mem_cons.mp hmem with rfl | hmem
    · exact h.1 (hlanded.append later)
    · exact ih (CancelOrder.tail h) hmem

/-! ### Runs that have nothing left to write -/

/-- The call writes no state from here on. -/
def MigrationCall.closed (host : HmacHost) (id : JsString) : MigrationCall → Prop
  | .read file => ∀ state, file.load host id = some state → state.overallStatus ≠ .inFlight
  | .run r =>
    match r.point with
    | .saving .failed .written => True
    | .saving .finished .written => True
    | .saving .left .written => r.state.overallStatus ≠ .inFlight
    | .settled => True
    | _ => False
  | _ => True

/-- The write of a cancel lands when the run is over, a write that has landed does not fail
afterwards, and no cancel is cut short in its write. -/
def CancelsLast (host : HmacHost) (id : JsString) (s : MigrationSystem) : MigrationEvent → Prop
  | .cancelLands _ => s.call.closed host id
  | .refuse _ _ => ∀ r why, s.call = .run r → r.point ≠ .saving why .written
  | .cancelTears _ => False
  | _ => True

/-- The run knows what it writes, and that it is not a cancelled state. -/
structure RunPlain (host : HmacHost) (r : LiveRun) : Prop where
  status : r.point ≠ .settled → r.state.overallStatus ≠ .cancelled
  signed : ∀ why raw, r.point = .saving why (.writing raw) → signedFile host r.state = .ok raw

def CancelKnows (host : HmacHost) (log : List Mark) : CancelCall → Prop
  | .stopping state => ∀ p ∈ state.phases, p.Faithful
  | .saving state step => state.overallStatus = .cancelled ∧ (∀ p ∈ state.phases, p.Faithful) ∧
      (∀ raw, step = .writing raw → signedFile host state = .ok raw) ∧ (step = .written → Landed log)
  | _ => True

/-- The file holds a cancelled state that loads. -/
structure CancelWins (host : HmacHost) (id : JsString) (s : MigrationSystem) : Prop where
  file : ∃ saved, Written host s.file saved ∧ saved.overallStatus = .cancelled ∧
    ∀ p ∈ saved.phases, p.Faithful
  closed : s.call.closed host id

structure CancelSafe (host : HmacHost) (id : JsString) (s : MigrationSystem) : Prop where
  run : ∀ r, s.call = .run r → RunPlain host r
  cancels : ∀ c ∈ s.cancels, CancelKnows host s.log c
  order : CancelOrder s.log
  wins : Landed s.log → CancelWins host id s

variable {host : HmacHost} {id : JsString} {s : MigrationSystem} {log : List Mark} {r : LiveRun}
  {state : MigrationState}

/-! ### Runs -/

theorem advance_plain (now : JsString) : RunPlain host (advance state now) := by
  by_cases hflight : state.overallStatus = .inFlight
  · cases hphase : state.phases[state.currentPhaseIndex]? with
    | none =>
      rw [advance_finished hflight hphase]
      exact ⟨fun _ hcontra => (by cases hcontra), fun why raw hcontra => (by cases hcontra)⟩
    | some p =>
      rw [advance_entered hflight hphase]
      refine ⟨fun _ hcontra => ?_, fun why raw hcontra => (by cases hcontra)⟩
      exact absurd (hflight.symm.trans hcontra) fun hne => (by cases hne)
  · rw [advance_settled hflight]
    exact ⟨fun hcontra => absurd rfl hcontra, fun why raw hcontra => (by cases hcontra)⟩

theorem settled_plain (r : LiveRun) : RunPlain host { r with point := .settled } :=
  ⟨fun hcontra => absurd rfl hcontra, fun why raw hcontra => (by cases hcontra)⟩

theorem caught_plain (r : LiveRun) (e : ThrownValue) : RunPlain host (r.caught e) := by
  cases e with
  | nullish => exact ⟨fun hcontra => absurd rfl hcontra, fun why raw hcontra => (by cases hcontra)⟩
  | error message code =>
    exact ⟨fun _ hcontra => (by cases hcontra), fun why raw hcontra => (by cases hcontra)⟩

theorem RunPlain.throw (h : RunPlain host r) (e : ThrownValue) : RunPlain host (r.throw e) := by
  have hsettled : RunPlain host { r with point := .settled } := settled_plain r
  have hcaught : RunPlain host (r.caught e) := caught_plain r e
  rw [LiveRun.throw]
  cases hpoint : r.point with
  | saving why step =>
    cases why with
    | entered => exact hcaught
    | left => exact hcaught
    | _ => exact hsettled
  | settled => exact h
  | _ => exact hcaught

/-- The run waits for something else than a write. -/
theorem RunPlain.asks (h : RunPlain host r) (hpoint : r.point ≠ .settled) {point : RunPoint}
    (hwrites : ∀ why raw, point ≠ .saving why (.writing raw)) :
    RunPlain host { r with point := point } :=
  ⟨fun _ => h.status hpoint, fun why raw hcontra => absurd hcontra (hwrites why raw)⟩

theorem RunPlain.leave (h : RunPlain host r) (hpoint : r.point ≠ .settled) (now : JsString) :
    RunPlain host (r.leave now) :=
  ⟨fun _ => h.status hpoint, fun why raw hcontra => (by cases hcontra)⟩

theorem RunPlain.answered (h : RunPlain host r) (hpoint : r.point ≠ .settled) (output : ProperValue)
    (now : JsString) : RunPlain host (r.answered output now) := by
  refine ⟨fun _ => ?_, fun why raw hcontra => (by cases hcontra)⟩
  change (if r.phaseName = some .execute then OverallStatus.complete else r.state.overallStatus) ≠
    .cancelled
  split_ifs
  · exact fun hcontra => (by cases hcontra)
  · exact h.status hpoint

theorem RunPlain.go (h : RunPlain host r) (hready : r.ready) (now : JsString) :
    RunPlain host (r.go host now) := by
  cases hpoint : r.point with
  | saving why step =>
    have hunsettled : r.point ≠ .settled := by
      rw [hpoint]
      exact fun hcontra => (by cases hcontra)
    cases step with
    | mkdir =>
      simp only [LiveRun.go, hpoint]
      cases hfile : signedFile host r.state with
      | error message => exact h.throw _
      | ok raw =>
        refine ⟨fun _ => h.status hunsettled, fun why' raw' heq => ?_⟩
        cases heq
        exact hfile
    | writing raw =>
      rw [LiveRun.ready, hpoint] at hready
      exact hready.elim
    | written =>
      simp only [LiveRun.go, hpoint]
      cases why with
      | started => exact advance_plain now
      | left => exact advance_plain now
      | entered =>
        simp only [LiveRun.saved]
        split_ifs
        · exact h.asks hunsettled fun why raw hcontra => (by cases hcontra)
        · exact h.asks hunsettled fun why raw hcontra => (by cases hcontra)
      | failed => exact settled_plain r
      | finished => exact settled_plain r
  | _ =>
    rw [LiveRun.ready, hpoint] at hready
    exact hready.elim

/-! ### Calls of `cancel` -/

theorem load_faithful {file : StateFile} (hload : file.load host id = some state) :
    ∀ p ∈ state.phases, p.Faithful := by
  cases file with
  | missing => cases hload
  | torn => cases hload
  | whole saved raw =>
    simp only [StateFile.load] at hload
    cases hraw : loadMigrationState host id raw with
    | error message =>
      rw [hraw] at hload
      cases hload
    | ok payload =>
      rw [hraw] at hload
      obtain rfl := Option.some.inj hload
      intro p hp
      obtain ⟨p', _, rfl⟩ := List.mem_map.mp hp
      exact p'.faithful_reloaded

theorem faithful_cancelled (h : ∀ p ∈ state.phases, p.Faithful) :
    ∀ p ∈ state.cancelled.phases, p.Faithful := by
  intro p hp
  obtain ⟨i, hi⟩ := List.mem_iff_getElem?.mp hp
  have hget := (getElem?_updatePhase state state.currentPhaseIndex .cancel i).symm.trans hi
  obtain ⟨p', hp', rfl⟩ := Option.map_eq_some_iff.mp hget
  have hold := h p' (List.mem_of_getElem? hp')
  split_ifs
  · exact hold
  · exact hold

theorem CancelKnows.cons {c : CancelCall} (m : Mark) (h : CancelKnows host log c) :
    CancelKnows host (m :: log) c := by
  cases c with
  | saving state step => exact ⟨h.1, h.2.1, h.2.2.1, fun hstep => (h.2.2.2 hstep).cons m⟩
  | _ => exact h

/-- What a cancel knows when it goes on, and that its state was persisted when it resolves. -/
theorem CancelKnows.go {c : CancelCall} (id : JsString) (h : CancelKnows host log c) (hready : c.ready) :
    CancelKnows host log (c.go host id) ∧ (c.resolves = [] ∨ c.resolves = [.cancelled] ∧ Landed log) := by
  cases c with
  | reading => exact hready.elim
  | ended => exact hready.elim
  | read file =>
    refine ⟨?_, .inl rfl⟩
    simp only [CancelCall.go]
    cases hload : file.load host id with
    | none => trivial
    | some state =>
      simp only
      split_ifs
      · exact load_faithful hload
      · trivial
  | stopping state =>
    exact ⟨⟨rfl, faithful_cancelled h, fun raw hraw => (by cases hraw), fun hraw => (by cases hraw)⟩,
      .inl rfl⟩
  | saving state step =>
    cases step with
    | mkdir =>
      refine ⟨?_, .inl rfl⟩
      simp only [CancelCall.go]
      cases hfile : signedFile host state with
      | error message => trivial
      | ok raw =>
        refine ⟨h.1, h.2.1, fun raw' heq => ?_, fun hraw => (by cases hraw)⟩
        cases heq
        exact hfile
    | writing raw => exact hready.elim
    | written => exact ⟨trivial, .inr ⟨rfl, h.2.2.2 rfl⟩⟩

/-! ### The system -/

theorem CancelSafe.cancelCall (h : CancelSafe host id s) (i : ℕ) :
    CancelKnows host s.log (s.cancelCall i) := by
  rw [MigrationSystem.cancelCall, List.getD_eq_getElem?_getD]
  cases hi : s.cancels[i]? with
  | none => trivial
  | some c => exact h.cancels c (List.mem_of_getElem? hi)

/-- The call goes on to another, after at most one mark that is not of a cancel. -/
theorem CancelSafe.setCall (h : CancelSafe host id s) {call : MigrationCall} {marks : List Mark}
    (hmarks : marks = [] ∨ ∃ m, marks = [m] ∧ CancelOrder (m :: s.log) ∧
      ∀ index, m ≠ .persisted index .cancelled)
    (hrun : ∀ r, call = .run r → RunPlain host r)
    (hover : s.call.closed host id → Landed s.log → call.closed host id) :
    CancelSafe host id { (s.mark marks) with call := call } := by
  have hwins (hlanded : Landed s.log) : CancelWins host id { s with call := call } :=
    ⟨(h.wins hlanded).file, hover (h.wins hlanded).closed hlanded⟩
  rcases hmarks with rfl | ⟨m, rfl, horder, hm⟩
  · exact ⟨hrun, h.cancels, h.order, hwins⟩
  · refine ⟨hrun, fun c hc => (h.cancels c hc).cons m, horder, ?_⟩
    rintro ⟨index, hmem⟩
    rcases List.mem_cons.mp hmem with heq | hmem
    · exact absurd heq.symm (hm index)
    · obtain ⟨hfile, hover'⟩ := hwins ⟨index, hmem⟩
      exact ⟨hfile, hover'⟩

/-- A run that is over waits for no answer and writes nothing. -/
theorem over_waits (h : (MigrationCall.run r).closed host id) :
    ¬ r.asks ∧ ¬ (MigrationCall.run r).writes ∧ r.invokes = [] ∧
      (r.saves → ∃ why, r.point = .saving why .written) := by
  obtain ⟨state, phase, point⟩ := r
  cases point with
  | saving why step =>
    cases step with
    | written =>
      refine ⟨fun hasks => hasks, fun hwrites => hwrites, ?_, fun _ => ⟨why, rfl⟩⟩
      cases why with
      | entered => exact h.elim
      | _ => rfl
    | _ => cases why <;> exact h.elim
  | settled => exact ⟨fun hasks => hasks, fun hwrites => hwrites, rfl, fun hsaves => hsaves.elim⟩
  | _ => exact h.elim

theorem over_go (h : (MigrationCall.run r).closed host id) (hready : r.ready) (now : JsString) :
    (MigrationCall.run (r.go host now)).closed host id := by
  obtain ⟨state, phase, point⟩ := r
  cases point with
  | saving why step =>
    cases step with
    | written =>
      cases why with
      | left =>
        change (MigrationCall.run (advance state now)).closed host id
        rw [advance_settled h]
        trivial
      | failed => trivial
      | finished => trivial
      | _ => exact h.elim
    | _ => cases why <;> exact h.elim
  | _ => exact hready.elim

theorem over_not_writes {call : MigrationCall} (h : call.closed host id) : ¬ call.writes := by
  cases call with
  | run r => exact (over_waits h).2.1
  | _ => exact fun hwrites => hwrites

/-- An answer to the run. -/
theorem CancelSafe.answerCall (h : CancelSafe host id s) {r : LiveRun} (hcall : s.call = .run r)
    (hasks : r.asks) {marks : List Mark}
    (hmarks : marks = [] ∨ ∃ m, marks = [m] ∧ CancelOrder (m :: s.log) ∧
      ∀ index, m ≠ .persisted index .cancelled)
    {f : LiveRun → LiveRun} (hf : RunPlain host (f r)) :
    CancelSafe host id (s.answerCall marks f s.call) := by
  rw [hcall]
  refine h.setCall hmarks ?_ ?_
  · intro r' hr'
    cases hr'
    exact hf
  · intro hover
    rw [hcall] at hover
    exact absurd hasks (over_waits hover).1

/-- The mark of an answer. -/
def Mark.answer : Mark → Prop
  | .invoked _ => False
  | .persisted _ _ => False
  | .cancelled => False
  | _ => True

theorem CancelSafe.answered (h : CancelSafe host id s) {r : LiveRun} (hcall : s.call = .run r)
    (hasks : r.asks) {m : Mark} (hm : m.answer) {f : LiveRun → LiveRun} (hf : RunPlain host (f r)) :
    CancelSafe host id (s.answerCall [m] f s.call) := by
  refine h.answerCall hcall hasks (.inr ⟨m, rfl, ?_, ?_⟩) hf
  · cases m with
    | invoked name => exact hm.elim
    | cancelled => exact hm.elim
    | _ => exact h.order
  · rintro index rfl
    exact hm

theorem asks_of_at {call : MigrationCall} {point : RunPoint} (h : call.at point)
    (hpoint : ∀ why step, point ≠ .saving why step) (hsettled : point ≠ .settled) :
    ∃ r, call = .run r ∧ r.point = point ∧ r.asks := by
  cases call with
  | run r =>
    refine ⟨r, rfl, h, ?_⟩
    have hat : r.point = point := h
    rw [LiveRun.asks, hat]
    cases point with
    | saving why step => exact absurd rfl (hpoint why step)
    | settled => exact absurd rfl hsettled
    | _ => trivial
  | _ => exact h.elim

theorem asks_unsettled (h : r.asks) : r.point ≠ .settled := by
  intro hpoint
  rw [LiveRun.asks, hpoint] at h
  exact h

theorem CancelSafe.go (h : CancelSafe host id s) (now : JsString)
    (ha : (∃ file, s.call = .read file) ∨ ∃ r, s.call = .run r ∧ r.ready) :
    CancelSafe host id (s.goCall host id now s.call) := by
  rcases ha with ⟨file, hread⟩ | ⟨r, hrun, hready⟩
  · rw [hread]
    simp only [MigrationSystem.goCall]
    cases hload : file.load host id with
    | none => exact h.setCall (.inl rfl) (fun r hr => (by cases hr)) fun _ _ => trivial
    | some state =>
      refine h.setCall (.inl rfl) ?_ ?_
      · intro r hr
        cases hr
        exact advance_plain now
      · intro hover _
        rw [hread] at hover
        rw [advance_settled (hover state hload)]
        trivial
  · have hplain := h.run r hrun
    rw [hrun]
    refine h.setCall ?_ ?_ ?_
    · rcases invokes_cases r with hnone | ⟨name, hname⟩
      · exact .inl hnone
      · refine .inr ⟨_, hname, ⟨?_, h.order⟩, fun index hcontra => (by cases hcontra)⟩
        intro hlanded
        have hover := (h.wins hlanded).closed
        rw [hrun] at hover
        rw [(over_waits hover).2.2.1] at hname
        cases hname
    · intro r' hr'
      cases hr'
      exact hplain.go hready now
    · intro hover _
      rw [hrun] at hover
      exact over_go hover hready now

theorem CancelSafe.land (h : CancelSafe host id s) (ha : s.call.writes) :
    CancelSafe host id (s.landCall s.call) := by
  have hnotLanded : ¬ Landed s.log := fun hlanded => over_not_writes (h.wins hlanded).closed ha
  cases hc : s.call with
  | run r =>
    obtain ⟨state, phase, point⟩ := r
    have hplain := h.run _ hc
    rw [hc] at ha
    cases point with
    | saving why step =>
      cases step with
      | writing raw =>
        have hstatus : state.overallStatus ≠ .cancelled :=
          hplain.status fun hcontra => (by cases hcontra)
        refine ⟨?_, fun c hmem => (h.cancels c hmem).cons _, h.order, ?_⟩
        · intro r hr
          cases hr
          exact ⟨fun _ => hstatus, fun why' raw' hcontra => (by cases hcontra)⟩
        · rintro ⟨index, hmem⟩
          rcases List.mem_cons.mp hmem with heq | hmem
          · injection heq with _ hcancelled
            exact absurd hcancelled.symm hstatus
          · exact absurd ⟨index, hmem⟩ hnotLanded
      | _ => exact ha.elim
    | _ => exact ha.elim
  | _ =>
    rw [hc] at ha
    exact ha.elim

theorem CancelSafe.landCancel (h : CancelSafe host id s) {i : ℕ} (ha : (s.cancelCall i).writes)
    (hover : s.call.closed host id) : CancelSafe host id (s.landCancel i (s.cancelCall i)) := by
  have hknows := h.cancelCall i
  cases hc : s.cancelCall i with
  | saving state step =>
    rw [hc] at ha hknows
    cases step with
    | writing raw =>
      obtain ⟨hstatus, hfaithful, hsigned, _⟩ := hknows
      have hlanded : Landed (.persisted state.currentPhaseIndex state.overallStatus :: s.log) := by
        rw [hstatus]
        exact ⟨_, List.mem_cons_self ..⟩
      refine ⟨h.run, ?_, h.order, fun _ => ⟨⟨state, ?_, hstatus, hfaithful⟩, hover⟩⟩
      · refine Automaton.forall_set (fun c hmem => (h.cancels c hmem).cons _) i ?_
        exact ⟨hstatus, hfaithful, fun raw' hcontra => (by cases hcontra), fun _ => hlanded⟩
      · exact ⟨raw, rfl, hsigned raw rfl⟩
    | _ => exact ha.elim
  | _ =>
    rw [hc] at ha
    exact ha.elim

/-- What every event keeps that meets the condition. -/
theorem CancelSafe.next (h : CancelSafe host id s) {e : MigrationEvent}
    (ha : (migrationMachine host id).allowed s e) (hlast : CancelsLast host id s e) :
    CancelSafe host id ((migrationMachine host id).next s e) := by
  have hwait {point : RunPoint} (hat : s.call.at point)
      (hpoint : ∀ why step, point ≠ .saving why step) (hsettled : point ≠ .settled) :=
    asks_of_at hat hpoint hsettled
  cases e with
  | resume => exact h.setCall (.inl rfl) (fun r hr => (by cases hr)) fun _ _ => trivial
  | read =>
    refine h.setCall (.inl rfl) (fun r hr => (by cases hr)) fun _ hlanded => ?_
    intro state hload
    obtain ⟨saved, hwritten, hstatus, _⟩ := (h.wins hlanded).file
    refine hwritten.load_terminal ?_ hload
    rw [hstatus]
    exact fun hcontra => (by cases hcontra)
  | go now => exact h.go now ha
  -- once a cancel has landed the call writes no more
  | tear =>
    refine ⟨h.run, h.cancels, h.order, fun hlanded => ?_⟩
    exact absurd ha (over_not_writes (h.wins hlanded).closed)
  | land => exact h.land ha
  | refuse message code =>
    rcases ha with hreading | ⟨r, hrun, hsaves⟩
    · simp only [migrationMachine, hreading, MigrationSystem.refuseCall]
      exact h.setCall (.inl rfl) (fun r hr => (by cases hr)) fun _ _ => trivial
    -- a write that is refused: no cancel can have landed before it
    · simp only [migrationMachine, hrun, MigrationSystem.refuseCall]
      refine h.setCall (.inl rfl) ?_ ?_
      · intro r' hr'
        cases hr'
        exact (h.run r hrun).throw _
      · intro hover
        rw [hrun] at hover
        obtain ⟨why, hpoint⟩ := (over_waits hover).2.2.2 hsaves
        exact absurd hpoint (hlast r why hrun)
  | returns output now =>
    obtain ⟨r, hrun, _, hasks⟩ := hwait ha (fun _ _ hcontra => (by cases hcontra))
      fun hcontra => (by cases hcontra)
    refine h.answered (m := .returned output) hrun hasks trivial ?_
    exact (h.run r hrun).answered (asks_unsettled hasks) output now
  | verified =>
    obtain ⟨r, hrun, _, hasks⟩ := hwait ha (fun _ _ hcontra => (by cases hcontra))
      fun hcontra => (by cases hcontra)
    refine h.answered (m := .verified) hrun hasks trivial ?_
    exact (h.run r hrun).asks (asks_unsettled hasks) fun _ _ hcontra => (by cases hcontra)
  | delayed =>
    obtain ⟨r, hrun, _, hasks⟩ := hwait ha (fun _ _ hcontra => (by cases hcontra))
      fun hcontra => (by cases hcontra)
    refine h.answered (m := .delayed) hrun hasks trivial ?_
    exact (h.run r hrun).asks (asks_unsettled hasks) fun _ _ hcontra => (by cases hcontra)
  | confirms accepted now =>
    obtain ⟨r, hrun, _, hasks⟩ := hwait ha (fun _ _ hcontra => (by cases hcontra))
      fun hcontra => (by cases hcontra)
    cases accepted with
    | true =>
      refine h.answered (m := .confirmed) hrun hasks trivial ?_
      exact (h.run r hrun).leave (asks_unsettled hasks) now
    | false => exact h.answerCall hrun hasks (.inl rfl) (caught_plain r _)
  | throws e =>
    obtain ⟨r, hrun, hasks⟩ := ha
    refine h.answered (m := .threw e) hrun hasks trivial ?_
    exact (h.run r hrun).throw e
  | crash =>
    refine ⟨fun r hr => (by cases hr), fun c hc => absurd hc List.not_mem_nil, h.order, ?_⟩
    exact fun hlanded => ⟨(h.wins hlanded).file, trivial⟩
  | cancel =>
    refine ⟨h.run, Automaton.forall_snoc h.cancels trivial, h.order, fun hlanded => ?_⟩
    exact ⟨(h.wins hlanded).file, (h.wins hlanded).closed⟩
  | cancelReads i =>
    refine ⟨h.run, Automaton.forall_set h.cancels i trivial, h.order, fun hlanded => ?_⟩
    exact ⟨(h.wins hlanded).file, (h.wins hlanded).closed⟩
  -- a cancel resolves only after its write has landed
  | cancelGoes i =>
    obtain ⟨hknows, hresolves⟩ := CancelKnows.go id (h.cancelCall i) ha
    rcases hresolves with hnone | ⟨hresolves, hlanded⟩
    · simp only [migrationMachine, hnone]
      refine ⟨h.run, Automaton.forall_set h.cancels i hknows, h.order, fun hlanded => ?_⟩
      exact ⟨(h.wins hlanded).file, (h.wins hlanded).closed⟩
    · simp only [migrationMachine, hresolves]
      refine ⟨h.run, ?_, ⟨hlanded, h.order⟩, fun _ => ?_⟩
      · exact Automaton.forall_set (fun c hc => (h.cancels c hc).cons _) i (hknows.cons _)
      · exact ⟨(h.wins hlanded).file, (h.wins hlanded).closed⟩
  | cancelTears i => exact hlast.elim
  | cancelLands i => exact h.landCancel ha hlast
  | cancelFails i =>
    refine ⟨h.run, Automaton.forall_set h.cancels i trivial, h.order, fun hlanded => ?_⟩
    exact ⟨(h.wins hlanded).file, (h.wins hlanded).closed⟩

/-- In every history of a start, resumes, crashes and cancels in which the write of a cancel
lands only when no run has anything left to write: once a cancel that found the migration in
flight has resolved, no phase is invoked any more, and the file loads as cancelled. -/
theorem cancel_wins (host : HmacHost) (plan : Migration) (file : StateFile) (s : MigrationSystem)
    (h : (migrationMachine host plan.migrationId).Reaches (CancelsLast host plan.migrationId)
      (startMigration file plan) s) (later before : List Mark)
    (hlog : s.log = later ++ .cancelled :: before) :
    (∀ name, .invoked name ∉ later) ∧
      ∃ saved raw payload, s.file = .whole saved raw ∧
        loadMigrationState host plan.migrationId raw = .ok payload ∧
        property (js "overall_status") payload = .str (js "cancelled") := by
  have hstart : CancelSafe host plan.migrationId (startMigration file plan) := by
    refine ⟨?_, fun c hc => absurd hc List.not_mem_nil, trivial, ?_⟩
    · intro r hr
      cases hr
      exact ⟨fun _ hcontra => (by cases hcontra), fun why raw hcontra => (by cases hcontra)⟩
    · rintro ⟨index, hmem⟩
      exact absurd hmem List.not_mem_nil
  have hs := h.invariant hstart fun _ _ hx ha hlast => hx.next ha hlast
  have horder : CancelOrder (later ++ .cancelled :: before) := hlog ▸ hs.order
  have hlanded : Landed (.cancelled :: before) := horder.landed.cons _
  refine ⟨fun name => horder.not_invoked hlanded name, ?_⟩
  obtain ⟨saved, ⟨raw, hfile, hraw⟩, hstatus, hfaithful⟩ :=
    (hs.wins (hlog ▸ hlanded.append later)).file
  have hsave := signedFile_iff.mp hraw
  obtain ⟨payload, hload⟩ := loads_of_faithful plan.migrationId hsave
    (MigrationState.faithful_live hfaithful)
  refine ⟨saved, raw, payload, hfile, hload, ?_⟩
  rw [(loaded_property hsave hload).1, hstatus]
  rfl

/-! ### A cancel of the sample -/

theorem storable_cancelled (h : state.toMigration.Storable) : state.cancelled.toMigration.Storable :=
  storable_updatePhase h state.currentPhaseIndex fun _ hp => hp

/-- A cancel from its call to its end. -/
theorem reaches_cancelled {C : MigrationSystem → MigrationEvent → Prop} {s₀ : MigrationSystem}
    {saved : MigrationState} {key : Bytes} (hkey : host.getSecret = .ok key)
    (hid : isUlid saved.migrationId = true) (hstorable : saved.toMigration.Storable)
    (hflight : saved.overallStatus = .inFlight) {file : StateFile} (hwritten : Written host file saved)
    {call : MigrationCall} (hC : ∀ u : MigrationSystem, u.call = call → C u .cancel ∧
      C u (.cancelReads 0) ∧ C u (.cancelGoes 0) ∧ C u (.cancelLands 0))
    (h : (migrationMachine host id).Reaches C s₀ ⟨file, call, [], log⟩) :
    ∃ raw, signedFile host saved.reloaded.cancelled = .ok raw ∧
      (migrationMachine host id).Reaches C s₀ ⟨.whole saved.reloaded.cancelled raw, call, [.ended],
        .cancelled :: .persisted saved.currentPhaseIndex .cancelled :: log⟩ := by
  have hstorable' := storable_cancelled (MigrationState.storable_reloaded hstorable)
  obtain ⟨raw, hraw⟩ : ∃ raw, signedFile host saved.reloaded.cancelled = .ok raw :=
    signedFile_of_storable hkey hid hstorable'
  have hload := hwritten.load hstorable id
  have hstopping : CancelCall.go host id (.read file) = .stopping saved.reloaded := by
    simp only [CancelCall.go, hload]
    exact if_pos hflight
  have hwriting : CancelCall.go host id (.saving saved.reloaded.cancelled .mkdir) =
      .saving saved.reloaded.cancelled (.writing raw) := by
    simp only [CancelCall.go, hraw]
  have hgoes (c : CancelCall) (file : StateFile) (log : List Mark) :
      (migrationMachine host id).next ⟨file, call, [c], log⟩ (.cancelGoes 0) =
        ⟨file, call, [c.go host id], c.resolves ++ log⟩ := rfl
  have hcancel := h.step (e := MigrationEvent.cancel) trivial (hC _ rfl).1
  have hread := hcancel.step (e := MigrationEvent.cancelReads 0) rfl (hC _ rfl).2.1
  have hstop := hread.step (e := MigrationEvent.cancelGoes 0) trivial (hC _ rfl).2.2.1
  change (migrationMachine host id).Reaches C s₀
    ⟨file, call, [CancelCall.go host id (.read file)], log⟩ at hstop
  rw [hstopping] at hstop
  have hsaving := hstop.step (e := MigrationEvent.cancelGoes 0) trivial (hC _ rfl).2.2.1
  have hsigned := hsaving.step (e := MigrationEvent.cancelGoes 0) trivial (hC _ rfl).2.2.1
  change (migrationMachine host id).Reaches C s₀ ⟨file, call,
    [CancelCall.go host id (.saving saved.reloaded.cancelled .mkdir)], log⟩ at hsigned
  rw [hwriting] at hsigned
  have hlanded := hsigned.step (e := MigrationEvent.cancelLands 0) trivial (hC _ rfl).2.2.2
  exact ⟨raw, hraw, hlanded.step (e := MigrationEvent.cancelGoes 0) trivial (hC _ rfl).2.2.1⟩

/-- The sample is cancelled after a crash in its first phase. -/
theorem cancel_wins_crashed : ∃ s later before,
    (migrationMachine sampleHost.toHmacHost samplePlan.migrationId).Reaches
      (CancelsLast sampleHost.toHmacHost samplePlan.migrationId)
      (startMigration .missing samplePlan) s ∧ s.log = later ++ .cancelled :: before ∧
    ∃ saved raw payload, s.file = .whole saved raw ∧
      loadMigrationState sampleHost.toHmacHost samplePlan.migrationId raw = .ok payload ∧
      property (js "overall_status") payload = .str (js "cancelled") := by
  obtain ⟨s, raw, hrun, hraw, rfl⟩ := sample_invoked
    (C := CancelsLast sampleHost.toHmacHost samplePlan.migrationId) fun _ => ⟨trivial, trivial⟩
  have hcrash := hrun.step (e := MigrationEvent.crash) trivial trivial
  have hwritten : Written sampleHost.toHmacHost (.whole identifying raw) identifying :=
    ⟨raw, rfl, hraw⟩
  obtain ⟨raw', _, hcancelled⟩ := reaches_cancelled rfl (by decide) identifying_storable rfl hwritten
    (fun u hu => ⟨trivial, trivial, trivial, by rw [CancelsLast, hu]; trivial⟩) hcrash
  exact ⟨_, [], _, hcancelled, rfl, (cancel_wins sampleHost.toHmacHost samplePlan .missing _ hcancelled
    [] _ rfl).2⟩

/-! ### A cancel during a phase -/

/-- The steps of runs and cancels, without crashes and refused or torn writes. -/
def Interleaved (_ : MigrationSystem) : MigrationEvent → Prop
  | .tear => False
  | .refuse _ _ => False
  | .crash => False
  | .cancelTears _ => False
  | .cancelFails _ => False
  | _ => True

def emptyList : ProperValue := ⟨.arr [], rfl⟩

/-- The first phase of the sample is left with an empty list as its output. -/
def listedLeft : LiveRun := LiveRun.answered ⟨identifying, 0, .handling⟩ emptyList sampleNow

theorem listedLeft_status : listedLeft.state.overallStatus = .inFlight := rfl

theorem listedLeft_call {file : StateFile} {cancels : List CancelCall} {log : List Mark} :
    ((migrationMachine sampleHost.toHmacHost samplePlan.migrationId).next
      ⟨file, .run ⟨identifying, 0, .handling⟩, cancels, log⟩ (.returns emptyList sampleNow)).call =
        .run ⟨listedLeft.state, 0, .saving .left .mkdir⟩ := rfl

theorem listedLeft_storable : listedLeft.state.toMigration.Storable := by
  refine storable_updatePhase (storable_updatePhase identifying_storable 0 ?_) 0 fun _ hp => hp
  intro p hp
  refine ⟨fun v hv => ?_, hp.2⟩
  obtain rfl := Option.some.inj hv
  exact LiveValue.storable_arr.mpr fun v hv => absurd hv List.not_mem_nil

/-- A run that is cancelled while a handler works saves its own state afterwards. -/
theorem cancel_wins_fails : ¬ ∀ (host : HmacHost) (plan : Migration) (file : StateFile)
    (s : MigrationSystem), (migrationMachine host plan.migrationId).Reaches Interleaved
      (startMigration file plan) s → ∀ later before, s.log = later ++ .cancelled :: before →
        (∀ name, .invoked name ∉ later) ∧
          ∃ saved raw payload, s.file = .whole saved raw ∧
            loadMigrationState host plan.migrationId raw = .ok payload ∧
            property (js "overall_status") payload = .str (js "cancelled") := by
  intro h
  obtain ⟨s, raw, hrun, hraw, rfl⟩ := sample_invoked (C := Interleaved) fun _ => ⟨trivial, trivial⟩
  have hwritten : Written sampleHost.toHmacHost (.whole identifying raw) identifying :=
    ⟨raw, rfl, hraw⟩
  obtain ⟨raw', _, hcancelled⟩ := reaches_cancelled rfl (by decide) identifying_storable rfl hwritten
    (fun u _ => ⟨trivial, trivial, trivial, trivial⟩) hrun
  obtain ⟨raw'', hleft⟩ := signedFile_of_storable sample_secret (by decide) listedLeft_storable
  have hreturns := hcancelled.step (e := MigrationEvent.returns emptyList sampleNow) rfl trivial
  have hsaved := reaches_saved hreturns listedLeft_call hleft sampleNow fun _ => ⟨trivial, trivial⟩
  obtain ⟨_, saved, raw₂, payload, hfile, hload, hstatus⟩ := h sampleHost.toHmacHost samplePlan .missing
    _ hsaved [.persisted listedLeft.state.currentPhaseIndex listedLeft.state.overallStatus,
      .returned emptyList] _ rfl
  obtain ⟨rfl, rfl⟩ := StateFile.whole.inj hfile
  have hproperty := (loaded_property (signedFile_iff.mp hleft) hload).1
  rw [hstatus] at hproperty
  have hsame : OverallStatus.cancelled.text = listedLeft.state.overallStatus.text :=
    JsValue.str.inj hproperty
  exact absurd ((OverallStatus.text_inj hsame).trans listedLeft_status) fun hcontra => (by cases hcontra)

end Homelab
