import Homelab.MigrationRun
import Homelab.SignedStores

/-! The phases of a migration run in order, each after the one before it is done and
persisted, over crashes and resumes. -/
namespace Homelab
open Js

/-! ### Logs of marks -/

/-- The phases in their order. -/
def phaseOrder : List MigrationPhaseName :=
  [.identifyResources, .planTarget, .dryRun, .approvalDelay, .execute]

def MigrationPhaseName.index : MigrationPhaseName → ℕ
  | .identifyResources => 0
  | .planTarget => 1
  | .dryRun => 2
  | .approvalDelay => 3
  | .execute => 4

/-- The log ends with the whole work of the phase. -/
def Worked : MigrationPhaseName → List Mark → Prop
  | .approvalDelay, log =>
      ∃ before, log = .confirmed :: .delayed :: .verified :: .invoked .approvalDelay :: before
  | name, log => ∃ output before, log = .returned output :: .invoked name :: before

/-- The phase's work was followed by the write of a state that is past the phase. -/
def Completed (log : List Mark) (name : MigrationPhaseName) : Prop :=
  ∃ later status before, log = later ++ .persisted (name.index+1) status :: before ∧ Worked name before

/-- A state that is complete, failed or cancelled was persisted. -/
def Ended (log : List Mark) : Prop := ∃ index status, .persisted index status ∈ log ∧ status ≠ .inFlight

/-- What was persisted last. -/
def lastPersisted : List Mark → Option (ℕ × OverallStatus)
  | [] => none
  | .persisted index status :: _ => some (index, status)
  | _ :: log => lastPersisted log

/-- What holds of the log before a mark. -/
def Fits : Mark → List Mark → Prop
  | .invoked name, log => lastPersisted log = some (name.index, .inFlight) ∧
      (∀ earlier : MigrationPhaseName, earlier.index < name.index → Completed log earlier) ∧ ¬ Ended log
  | .persisted index _, log => ∀ index' status, .persisted index' status ∈ log → index' ≤ index
  | _, _ => True

def InOrder : List Mark → Prop
  | [] => True
  | m :: log => Fits m log ∧ InOrder log

theorem InOrder.fits {log later before : List Mark} {m : Mark} (h : InOrder log)
    (hlog : log = later ++ m :: before) : Fits m before := by
  induction later generalizing log with
  | nil =>
    subst hlog
    exact h.1
  | cons m' later ih =>
    subst hlog
    exact ih h.2 rfl

theorem Completed.cons {log : List Mark} {name : MigrationPhaseName} (m : Mark)
    (h : Completed log name) : Completed (m :: log) name := by
  obtain ⟨later, status, before, rfl, hworked⟩ := h
  exact ⟨m :: later, status, before, rfl, hworked⟩

/-- The phases before the `k`-th are done and persisted, and the migration has not ended. -/
structure PhaseReached (log : List Mark) (k : ℕ) : Prop where
  open_ : ¬ Ended log
  completed : ∀ name : MigrationPhaseName, name.index < k → Completed log name

/-- The mark does not tell of a write. -/
def Mark.quiet : Mark → Prop
  | .persisted _ _ => False
  | _ => True

theorem ended_cons {m : Mark} (hm : m.quiet) {log : List Mark} : Ended (m :: log) ↔ Ended log := by
  constructor
  · intro h
    obtain ⟨index, status, hmem, hstatus⟩ := h
    rcases List.mem_cons.mp hmem with rfl | hmem
    · exact hm.elim
    · exact ⟨index, status, hmem, hstatus⟩
  · intro h
    obtain ⟨index, status, hmem, hstatus⟩ := h
    exact ⟨index, status, List.mem_cons_of_mem _ hmem, hstatus⟩

theorem PhaseReached.cons {m : Mark} (hm : m.quiet) {log : List Mark} {k : ℕ} (h : PhaseReached log k) :
    PhaseReached (m :: log) k :=
  ⟨fun hended => h.open_ ((ended_cons hm).mp hended), fun name hname => (h.completed name hname).cons m⟩

/-- A write of a state that is in flight. -/
theorem PhaseReached.persisted {log : List Mark} {k index : ℕ} (h : PhaseReached log k) :
    PhaseReached (.persisted index .inFlight :: log) k := by
  refine ⟨?_, fun name hname => (h.completed name hname).cons _⟩
  rintro ⟨index', status, hmem, hstatus⟩
  rcases List.mem_cons.mp hmem with heq | hmem
  · cases heq
    exact hstatus rfl
  · exact h.open_ ⟨index', status, hmem, hstatus⟩

theorem MigrationPhaseName.index_inj {a b : MigrationPhaseName} (h : a.index = b.index) : a = b := by
  cases a <;> cases b <;> first | rfl | cases h

/-- Its write makes the work of a phase complete. -/
theorem PhaseReached.next {log : List Mark} {name : MigrationPhaseName} (h : PhaseReached log name.index)
    (hworked : Worked name log) :
    PhaseReached (.persisted (name.index+1) .inFlight :: log) (name.index+1) := by
  refine ⟨h.persisted.open_, ?_⟩
  intro earlier hearlier
  rcases Nat.lt_succ_iff_lt_or_eq.mp hearlier with hlt | heq
  · exact (h.completed earlier hlt).cons _
  · obtain rfl := MigrationPhaseName.index_inj heq
    exact ⟨[], .inFlight, log, rfl, hworked⟩

/-! ### States and runs -/

/-- A state from which a run can go on to its next phase. -/
structure Ready (log : List Mark) (s : MigrationState) : Prop where
  names : s.phases.map (·.name) = phaseOrder
  persisted : ∀ index status, .persisted index status ∈ log → index ≤ s.currentPhaseIndex
  reached : s.overallStatus = .inFlight → PhaseReached log s.currentPhaseIndex

/-- The run is in a phase that it may be in. -/
structure AtPhase (log : List Mark) (s : MigrationState) (k : ℕ) : Prop where
  phase : s.currentPhaseIndex = k
  status : s.overallStatus = .inFlight
  reached : PhaseReached log k

/-- What the log says where the run waits. -/
def PointFits (log : List Mark) (r : LiveRun) : RunPoint → Prop
  | .saving .started _ => r.state.overallStatus = .inFlight → PhaseReached log r.state.currentPhaseIndex
  | .saving .entered .written =>
      AtPhase log r.state r.phase ∧ lastPersisted log = some (r.phase, .inFlight) ∧ r.phaseName ≠ none
  | .saving .entered _ => AtPhase log r.state r.phase ∧ r.phaseName ≠ none
  | .handling => AtPhase log r.state r.phase ∧ ∃ name before, r.phaseName = some name ∧
    name ≠ .approvalDelay ∧
      log = .invoked name :: before
  | .verifying => AtPhase log r.state r.phase ∧ r.phaseName = some .approvalDelay ∧
      ∃ before, log = .invoked .approvalDelay :: before
  | .delaying => AtPhase log r.state r.phase ∧ r.phaseName = some .approvalDelay ∧
      ∃ before, log = .verified :: .invoked .approvalDelay :: before
  | .confirming => AtPhase log r.state r.phase ∧ r.phaseName = some .approvalDelay ∧
      ∃ before, log = .delayed :: .verified :: .invoked .approvalDelay :: before
  | .saving .left .written =>
      r.state.overallStatus = .inFlight → PhaseReached log r.state.currentPhaseIndex
  | .saving .left _ => r.state.currentPhaseIndex = r.phase+1 ∧ PhaseReached log r.phase ∧
      ∃ name, r.phaseName = some name ∧ Worked name log
  | .saving .failed _ => r.state.overallStatus ≠ .inFlight
  | .saving .finished _ => r.state.overallStatus ≠ .inFlight
  | .settled => True

/-- The run and the log belong together. -/
structure RunFits (log : List Mark) (r : LiveRun) : Prop where
  names : r.state.phases.map (·.name) = phaseOrder
  persisted : ∀ index status, .persisted index status ∈ log → index ≤ r.state.currentPhaseIndex
  point : PointFits log r r.point

variable {log : List Mark} {state : MigrationState} {r : LiveRun}

theorem names_updatePhase {f : MigrationPhase → MigrationPhase} (hf : ∀ p, (f p).name = p.name)
    (s : MigrationState) (k : ℕ) :
    (s.updatePhase k f).phases.map (·.name) = s.phases.map (·.name) := by
  apply List.ext_getElem?
  intro i
  rw [List.getElem?_map, List.getElem?_map, getElem?_updatePhase]
  cases s.phases[i]? with
  | none => rfl
  | some p =>
    refine congrArg some ?_
    split_ifs
    · exact hf p
    · rfl

theorem phaseName_eq (r : LiveRun) : r.phaseName = (r.state.phases.map (·.name))[r.phase]? := by
  rw [LiveRun.phaseName, List.getElem?_map]

/-- The index of a phase is where it stands in a plan in order. -/
theorem phaseName_index (hnames : r.state.phases.map (·.name) = phaseOrder)
    {name : MigrationPhaseName} (h : r.phaseName = some name) : name.index = r.phase := by
  rw [phaseName_eq, hnames] at h
  obtain ⟨hlt, hget⟩ := List.getElem?_eq_some_iff.mp h
  rw [← hget]
  clear hget h hnames
  generalize r.phase = k at hlt
  change k < 5 at hlt
  interval_cases k <;> rfl

theorem Ready.cons {m : Mark} (hm : m.quiet) (h : Ready log state) : Ready (m :: log) state := by
  refine ⟨h.names, ?_, fun hflight => (h.reached hflight).cons hm⟩
  intro index status hmem
  rcases List.mem_cons.mp hmem with rfl | hmem
  · exact hm.elim
  · exact h.persisted index status hmem

/-- A state that is read back is as ready as the one that was written. -/
theorem Ready.reloaded (h : Ready log state) : Ready log state.reloaded := by
  refine ⟨?_, h.persisted, h.reached⟩
  rw [MigrationState.reloaded, List.map_map]
  exact h.names

theorem Ready.advance (h : Ready log state) (now : JsString) : RunFits log (advance state now) := by
  by_cases hflight : state.overallStatus = .inFlight
  · cases hphase : state.phases[state.currentPhaseIndex]? with
    | none =>
      rw [advance_finished hflight hphase]
      exact ⟨h.names, h.persisted, fun hcontra => (by cases hcontra)⟩
    | some p =>
      rw [advance_entered hflight hphase]
      have hnames := names_updatePhase (f := .start now) (fun _ => rfl) state state.currentPhaseIndex
      refine ⟨hnames.trans h.names, h.persisted, ⟨rfl, hflight, h.reached hflight⟩, ?_⟩
      rw [phaseName_eq, hnames, List.getElem?_map, hphase]
      exact Option.some_ne_none _
  · rw [advance_settled hflight]
    exact ⟨h.names, h.persisted, trivial⟩

theorem caught_fits (hnames : r.state.phases.map (·.name) = phaseOrder)
    (hpersisted : ∀ index status, .persisted index status ∈ log → index ≤ r.state.currentPhaseIndex)
    (e : ThrownValue) : RunFits log (r.caught e) := by
  have hupdate (error : Option PhaseError) :=
    names_updatePhase (f := .fail error) (fun _ => rfl) r.state r.phase
  cases e with
  | nullish => exact ⟨(hupdate _).trans hnames, hpersisted, trivial⟩
  | error message code =>
    exact ⟨(hupdate _).trans hnames, hpersisted, fun hcontra => (by cases hcontra)⟩

theorem throw_fits (hnames : r.state.phases.map (·.name) = phaseOrder)
    (hpersisted : ∀ index status, .persisted index status ∈ log → index ≤ r.state.currentPhaseIndex)
    (e : ThrownValue) : RunFits log (r.throw e) := by
  have hsettled : RunFits log { r with point := .settled } := ⟨hnames, hpersisted, trivial⟩
  have hcaught := caught_fits hnames hpersisted e
  rw [LiveRun.throw]
  cases hpoint : r.point with
  | saving why step =>
    cases why with
    | entered => exact hcaught
    | left => exact hcaught
    | _ => exact hsettled
  | settled => exact ⟨hnames, hpersisted, by rw [hpoint]; trivial⟩
  | _ => exact hcaught

/-- A phase whose work is done is left. -/
theorem leave_fits (hnames : r.state.phases.map (·.name) = phaseOrder)
    (hpersisted : ∀ index status, .persisted index status ∈ log → index ≤ r.state.currentPhaseIndex)
    (hphase : r.state.currentPhaseIndex = r.phase) (hreached : PhaseReached log r.phase)
    {name : MigrationPhaseName} (hname : r.phaseName = some name) (hworked : Worked name log)
    (now : JsString) : RunFits log (r.leave now) := by
  have hupdate := names_updatePhase (f := .complete now) (fun _ => rfl) r.state r.phase
  refine ⟨hupdate.trans hnames, ?_, congrArg (·+1) hphase, hreached, name, ?_, hworked⟩
  · exact fun index status hmem => (hpersisted index status hmem).trans (Nat.le_succ _)
  · rw [phaseName_eq] at hname ⊢
    exact (congrArg (·[r.phase]?) hupdate).trans hname

theorem persisted_cons {m : Mark} (hm : m.quiet) {k : ℕ}
    (h : ∀ index status, .persisted index status ∈ log → index ≤ k) :
    ∀ index status, .persisted index status ∈ m :: log → index ≤ k := by
  intro index status hmem
  rcases List.mem_cons.mp hmem with rfl | hmem
  · exact hm.elim
  · exact h index status hmem

/-- A handler that returns has done the work of its phase. -/
theorem RunFits.answered (h : RunFits log r) (hpoint : r.point = .handling) (output : ProperValue)
    (now : JsString) : RunFits (.returned output :: log) (r.answered output now) := by
  have hfits := h.point
  rw [hpoint] at hfits
  obtain ⟨hat, name, before, hname, hother, hlog⟩ := hfits
  have hquiet : (Mark.returned output).quiet := trivial
  have hupdate := names_updatePhase (f := .answer output) (fun _ => rfl) r.state r.phase
  have hworked : Worked name (.returned output :: log) := by
    rw [hlog]
    cases name with
    | approvalDelay => exact absurd rfl hother
    | _ => exact ⟨output, before, rfl⟩
  rw [LiveRun.answered]
  generalize (if r.phaseName = some MigrationPhaseName.execute then OverallStatus.complete
    else (r.state.updatePhase r.phase (.answer output)).overallStatus) = status
  let r' : LiveRun :=
    { r with state := { r.state.updatePhase r.phase (.answer output) with overallStatus := status } }
  refine leave_fits (r := r') (hupdate.trans h.names) (persisted_cons hquiet h.persisted) hat.phase
    (hat.reached.cons hquiet) ?_ hworked now
  rw [phaseName_eq] at hname ⊢
  exact (congrArg (·[r.phase]?) hupdate).trans hname

/-- The confirmation is the end of the work of the approval phase. -/
theorem RunFits.approved (h : RunFits log r) (hpoint : r.point = .confirming) (now : JsString) :
    RunFits (.confirmed :: log) (r.leave now) := by
  have hfits := h.point
  rw [hpoint] at hfits
  obtain ⟨hat, hname, before, hlog⟩ := hfits
  have hquiet : Mark.confirmed.quiet := trivial
  have hworked : Worked .approvalDelay (.confirmed :: log) := ⟨before, by rw [hlog]⟩
  exact leave_fits h.names (persisted_cons hquiet h.persisted) hat.phase (hat.reached.cons hquiet)
    hname hworked now

/-- What the run asks for is answered, and it waits for the next answer. -/
theorem RunFits.asks (h : RunFits log r) {m : Mark} (hm : m.quiet) {point : RunPoint}
    (hpoint : PointFits (m :: log) { r with point := point } point) :
    RunFits (m :: log) { r with point := point } :=
  ⟨h.names, persisted_cons hm h.persisted, hpoint⟩

theorem AtPhase.cons {m : Mark} (hm : m.quiet) {phase : ℕ} (h : AtPhase log state phase) :
    AtPhase (m :: log) state phase := ⟨h.phase, h.status, h.reached.cons hm⟩

/-- Where a run goes on after a save. -/
theorem RunFits.saved (h : RunFits log r) {why : SavePoint} (hpoint : r.point = .saving why .written)
    (now : JsString) :
    RunFits (r.invokes ++ log) (r.saved now why) ∧ ∀ m ∈ r.invokes, Fits m log := by
  have hfits := h.point
  rw [hpoint] at hfits
  have hsettled : RunFits log { r with point := .settled } := ⟨h.names, h.persisted, trivial⟩
  cases why with
  | started =>
    rw [LiveRun.invokes, hpoint]
    exact ⟨Ready.advance ⟨h.names, h.persisted, hfits⟩ now, fun m hm => absurd hm List.not_mem_nil⟩
  | left =>
    rw [LiveRun.invokes, hpoint]
    exact ⟨Ready.advance ⟨h.names, h.persisted, hfits⟩ now, fun m hm => absurd hm List.not_mem_nil⟩
  | failed =>
    rw [LiveRun.invokes, hpoint]
    exact ⟨hsettled, fun m hm => absurd hm List.not_mem_nil⟩
  | finished =>
    rw [LiveRun.invokes, hpoint]
    exact ⟨hsettled, fun m hm => absurd hm List.not_mem_nil⟩
  | entered =>
    obtain ⟨hat, hlast, hsome⟩ := hfits
    obtain ⟨name, hname⟩ := Option.ne_none_iff_exists'.mp hsome
    have hquiet : (Mark.invoked name).quiet := trivial
    have hindex := phaseName_index h.names hname
    have hinvokes : r.invokes = [.invoked name] := by rw [LiveRun.invokes, hpoint, hname]; rfl
    rw [hinvokes]
    constructor
    · simp only [LiveRun.saved, hname, Option.some.injEq]
      split_ifs with happroval
      · subst happroval
        exact h.asks hquiet ⟨hat.cons hquiet, hname, log, rfl⟩
      · exact h.asks hquiet ⟨hat.cons hquiet, name, log, hname, happroval, rfl⟩
    · intro m hm
      rw [List.mem_singleton.mp hm]
      refine ⟨hlast.trans (by rw [hindex]), ?_, hat.reached.open_⟩
      intro earlier hearlier
      exact hat.reached.completed earlier (hearlier.trans_eq hindex)

/-- What the run leaves behind when it goes on. -/
theorem RunFits.go {host : HmacHost} (h : RunFits log r) (hready : r.ready) (now : JsString) :
    RunFits (r.invokes ++ log) (r.go host now) ∧ ∀ m ∈ r.invokes, Fits m log := by
  cases hpoint : r.point with
  | saving why step =>
    cases step with
    | mkdir =>
      have hinvokes : r.invokes = [] := by
        rw [LiveRun.invokes, hpoint]
        cases why <;> rfl
      rw [hinvokes]
      refine ⟨?_, fun m hm => absurd hm List.not_mem_nil⟩
      have hfits := h.point
      rw [hpoint] at hfits
      simp only [LiveRun.go, hpoint]
      cases hfile : signedFile host r.state with
      | error message => exact throw_fits h.names h.persisted _
      | ok raw =>
        refine ⟨h.names, h.persisted, ?_⟩
        cases why <;> exact hfits
    | writing raw =>
      rw [LiveRun.ready, hpoint] at hready
      exact hready.elim
    | written =>
      have hgo : r.go host now = r.saved now why := by rw [LiveRun.go, hpoint]
      rw [hgo]
      exact h.saved hpoint now
  | _ =>
    rw [LiveRun.ready, hpoint] at hready
    exact hready.elim

/-- A state that the run has written is in the file, and the run knows it. -/
theorem RunFits.land {phase : ℕ} {why : SavePoint} {raw : JsValue}
    (h : RunFits log ⟨state, phase, .saving why (.writing raw)⟩) :
    Ready (.persisted state.currentPhaseIndex state.overallStatus :: log) state ∧
      RunFits (.persisted state.currentPhaseIndex state.overallStatus :: log)
        ⟨state, phase, .saving why .written⟩ := by
  have hnames : state.phases.map (·.name) = phaseOrder := h.names
  have hpersisted : ∀ index status, .persisted index status ∈
      .persisted state.currentPhaseIndex state.overallStatus :: log →
        index ≤ state.currentPhaseIndex := by
    intro index status hmem
    rcases List.mem_cons.mp hmem with heq | hmem
    · cases heq
      exact le_rfl
    · exact h.persisted index status hmem
  have hreached : state.overallStatus = .inFlight →
      PhaseReached (.persisted state.currentPhaseIndex state.overallStatus :: log)
        state.currentPhaseIndex := by
    intro hflight
    rw [hflight]
    have hfits := h.point
    cases why with
    | started => exact (hfits hflight).persisted
    | entered =>
      obtain ⟨hat, _⟩ := hfits
      have hphase : state.currentPhaseIndex = phase := hat.phase
      rw [hphase]
      exact hat.reached.persisted
    | left =>
      obtain ⟨hindex, hreached, name, hname, hworked⟩ := hfits
      have hphase : name.index = phase := phaseName_index h.names hname
      have hnext : state.currentPhaseIndex = name.index+1 := hindex.trans (by rw [hphase])
      rw [hnext]
      refine PhaseReached.next ?_ hworked
      rw [hphase]
      exact hreached
    | failed => exact absurd hflight hfits
    | finished => exact absurd hflight hfits
  refine ⟨⟨hnames, hpersisted, hreached⟩, hnames, hpersisted, ?_⟩
  have hfits := h.point
  cases why with
  | started => exact hreached
  | entered =>
    obtain ⟨hat, hsome⟩ := hfits
    have hphase : state.currentPhaseIndex = phase := hat.phase
    have hflight : state.overallStatus = .inFlight := hat.status
    refine ⟨⟨hphase, hflight, hphase ▸ hreached hflight⟩, ?_, hsome⟩
    rw [lastPersisted, hphase, hflight]
  | left => exact hreached
  | failed => exact hfits
  | finished => exact hfits

/-! ### The system -/

def StateFile.Fits (log : List Mark) : StateFile → Prop
  | .whole state _ => Ready log state
  | _ => True

def MigrationCall.Fits (log : List Mark) : MigrationCall → Prop
  | .read file => file.Fits log
  | .run r => RunFits log r
  | _ => True

/-- The log is in order, and the file and the call belong to it. -/
structure Orderly (s : MigrationSystem) : Prop where
  order : InOrder s.log
  cancels : s.cancels = []
  file : s.file.Fits s.log
  call : s.call.Fits s.log

def NoCancel (_ : MigrationSystem) : MigrationEvent → Prop
  | .cancel => False
  | _ => True

variable {host : HmacHost} {id : JsString} {s : MigrationSystem}

theorem invokes_cases (r : LiveRun) : r.invokes = [] ∨ ∃ name, r.invokes = [.invoked name] := by
  rw [LiveRun.invokes]
  split
  · cases r.phaseName with
    | none => exact .inl rfl
    | some name => exact .inr ⟨name, rfl⟩
  · exact .inl rfl

theorem StateFile.Fits.cons {file : StateFile} {m : Mark} (hm : m.quiet) (h : file.Fits log) :
    file.Fits (m :: log) := by
  cases file with
  | whole state raw => exact Ready.cons hm h
  | _ => trivial

/-- What is loaded from a file that belongs to the log is ready. -/
theorem StateFile.Fits.load {file : StateFile} (h : file.Fits log)
    (hload : file.load host id = some state) : Ready log state := by
  cases file with
  | missing => cases hload
  | torn => cases hload
  | whole saved raw =>
    simp only [StateFile.load] at hload
    cases hraw : loadMigrationState host id raw with
    | error message =>
      rw [hraw] at hload
      cases hload
    | ok payload =>
      rw [hraw] at hload
      obtain rfl := Option.some.inj hload
      exact Ready.reloaded h

/-- The run has gone from `r` to `r'`, after at most one mark. -/
theorem Orderly.run (h : Orderly s) {r : LiveRun} {marks : List Mark}
    (hmarks : marks = [] ∨ ∃ m, marks = [m] ∧ m.quiet) (hfits : ∀ m ∈ marks, Homelab.Fits m s.log)
    (hrun : RunFits (marks ++ s.log) r) : Orderly ((s.mark marks).setRun r) := by
  rcases hmarks with rfl | ⟨m, rfl, hm⟩
  · exact ⟨h.order, h.cancels, h.file, hrun⟩
  · exact ⟨⟨hfits m (List.mem_singleton_self m), h.order⟩, h.cancels, h.file.cons hm, hrun⟩

theorem fits_nil {m : Mark} (hm : m ∈ ([] : List Mark)) : Homelab.Fits m log :=
  absurd hm List.not_mem_nil

theorem Orderly.goCall (h : Orderly s) (now : JsString)
    (ha : (∃ file, s.call = .read file) ∨ ∃ r, s.call = .run r ∧ r.ready) :
    Orderly (s.goCall host id now s.call) := by
  have hcall := h.call
  rcases ha with ⟨file, hread⟩ | ⟨r, hrun, hready⟩
  · rw [hread] at hcall ⊢
    simp only [MigrationSystem.goCall]
    cases hload : file.load host id with
    | none => exact ⟨h.order, h.cancels, h.file, trivial⟩
    | some state =>
      have hready : Ready s.log state := StateFile.Fits.load hcall hload
      exact h.run (.inl rfl) (fun m hm => fits_nil hm) (hready.advance now)
  · rw [hrun] at hcall ⊢
    obtain ⟨hfits, hmarks⟩ := RunFits.go hcall hready now
    refine h.run ?_ hmarks hfits
    rcases invokes_cases r with hnone | ⟨name, hname⟩
    · exact .inl hnone
    · exact .inr ⟨_, hname, trivial⟩

theorem Orderly.landCall (h : Orderly s) (ha : s.call.writes) : Orderly (s.landCall s.call) := by
  have hcall := h.call
  cases hc : s.call with
  | run r =>
    obtain ⟨state, phase, point⟩ := r
    rw [hc] at hcall ha
    cases point with
    | saving why step =>
      cases step with
      | writing raw =>
        obtain ⟨hready, hfits⟩ := RunFits.land hcall
        exact ⟨⟨hcall.persisted, h.order⟩, h.cancels, hready, hfits⟩
      | _ => exact ha.elim
    | _ => exact ha.elim
  | _ =>
    rw [hc] at ha
    exact ha.elim

theorem Orderly.refuseCall (h : Orderly s) (e : ThrownValue) : Orderly (s.refuseCall e s.call) := by
  have hcall := h.call
  cases hc : s.call with
  | reading => exact ⟨h.order, h.cancels, h.file, trivial⟩
  | run r =>
    rw [hc] at hcall
    exact ⟨h.order, h.cancels, h.file, throw_fits hcall.names hcall.persisted e⟩
  | _ => exact h

/-- An answer that the run waits for. -/
theorem Orderly.answerCall (h : Orderly s) {point : RunPoint} (ha : s.call.at point) {m : Mark}
    (hm : m.quiet) (hfits : Homelab.Fits m s.log) {f : LiveRun → LiveRun}
    (hf : ∀ r, RunFits s.log r → r.point = point → RunFits (m :: s.log) (f r)) :
    Orderly (s.answerCall [m] f s.call) := by
  have hcall := h.call
  cases hc : s.call with
  | run r =>
    rw [hc] at hcall ha
    refine h.run (.inr ⟨m, rfl, hm⟩) ?_ (hf r hcall ha)
    exact fun m' hm' => (List.mem_singleton.mp hm') ▸ hfits
  | _ =>
    rw [hc] at ha
    exact ha.elim

/-- A step of a call of `cancel`. -/
def MigrationEvent.ofCancel : MigrationEvent → Prop
  | .cancelReads _ => True
  | .cancelGoes _ => True
  | .cancelTears _ => True
  | .cancelLands _ => True
  | .cancelFails _ => True
  | _ => False

theorem not_ofCancel (h : s.cancels = []) {e : MigrationEvent}
    (ha : (migrationMachine host id).allowed s e) : ¬ e.ofCancel := by
  have hended (i : ℕ) : s.cancelCall i = .ended := by
    rw [MigrationSystem.cancelCall, h]
    rfl
  cases e with
  | cancelReads i =>
    have hreading : s.cancelCall i = .reading := ha
    rw [hended] at hreading
    cases hreading
  | cancelGoes i =>
    have hready : (s.cancelCall i).ready := ha
    rw [hended] at hready
    exact hready.elim
  | cancelTears i =>
    have hwrites : (s.cancelCall i).writes := ha
    rw [hended] at hwrites
    exact hwrites.elim
  | cancelLands i =>
    have hwrites : (s.cancelCall i).writes := ha
    rw [hended] at hwrites
    exact hwrites.elim
  | cancelFails i =>
    have hawaits : (s.cancelCall i).awaits := ha
    rw [hended] at hawaits
    exact hawaits.elim
  | _ => exact fun hcontra => hcontra

/-- What every event but a cancel keeps. -/
theorem Orderly.next (h : Orderly s) {e : MigrationEvent} (ha : (migrationMachine host id).allowed s e)
    (hno : NoCancel s e) : Orderly ((migrationMachine host id).next s e) := by
  cases e with
  | resume => exact ⟨h.order, h.cancels, h.file, trivial⟩
  | read => exact ⟨h.order, h.cancels, h.file, h.file⟩
  | go now => exact h.goCall now ha
  | tear => exact ⟨h.order, h.cancels, trivial, h.call⟩
  | land => exact h.landCall ha
  | refuse message code => exact h.refuseCall _
  | returns output now =>
    refine h.answerCall (m := .returned output) ha trivial trivial ?_
    exact fun r hr hpoint => hr.answered hpoint output now
  | verified =>
    have hquiet : Mark.verified.quiet := trivial
    refine h.answerCall (m := .verified) ha hquiet trivial ?_
    intro r hr hpoint
    have hfits := hr.point
    rw [hpoint] at hfits
    obtain ⟨hat, hname, before, hlog⟩ := hfits
    exact hr.asks hquiet ⟨hat.cons hquiet, hname, before, congrArg (Mark.verified :: ·) hlog⟩
  | delayed =>
    have hquiet : Mark.delayed.quiet := trivial
    refine h.answerCall (m := .delayed) ha hquiet trivial ?_
    intro r hr hpoint
    have hfits := hr.point
    rw [hpoint] at hfits
    obtain ⟨hat, hname, before, hlog⟩ := hfits
    exact hr.asks hquiet ⟨hat.cons hquiet, hname, before, congrArg (Mark.delayed :: ·) hlog⟩
  | confirms accepted now =>
    cases accepted with
    | true =>
      refine h.answerCall (m := .confirmed) ha trivial trivial ?_
      exact fun r hr hpoint => hr.approved hpoint now
    | false =>
      -- a refusal is thrown inside the `try`: no mark is made, and the run is at its `catch`
      have hcall := h.call
      have hat : s.call.at .confirming := ha
      simp only [migrationMachine, Bool.false_eq_true, if_false]
      cases hc : s.call with
      | run r =>
        rw [hc] at hcall
        exact h.run (.inl rfl) (fun m hm => fits_nil hm) (caught_fits hcall.names hcall.persisted _)
      | _ =>
        rw [hc] at hat
        exact hat.elim
  | throws e =>
    obtain ⟨r, hrun, _⟩ := ha
    have hcall := h.call
    rw [hrun] at hcall
    have hquiet : (Mark.threw e).quiet := trivial
    simp only [migrationMachine, hrun, MigrationSystem.answerCall]
    refine h.run (.inr ⟨_, rfl, hquiet⟩) ?_ ?_
    · exact fun m hm => (List.mem_singleton.mp hm) ▸ trivial
    · exact throw_fits hcall.names (persisted_cons hquiet hcall.persisted) e
  | crash => exact ⟨h.order, rfl, h.file, trivial⟩
  | cancel => exact hno.elim
  | _ => exact absurd trivial (not_ofCancel h.cancels ha)

def sampleNow : JsString := js "2026-01-01T00:00:01.000Z"

/-- The sample in its first phase. -/
def identifying : MigrationState := sampleState.updatePhase 0 (.start sampleNow)

theorem sample_file : ∃ raw, signedFile sampleHost.toHmacHost sampleState = .ok raw :=
  signedFile_of_storable rfl (by decide) samplePlan_storable

theorem identifying_storable : identifying.toMigration.Storable :=
  storable_updatePhase samplePlan_storable 0 fun _ hp => hp

theorem identifying_file : ∃ raw, signedFile sampleHost.toHmacHost identifying = .ok raw :=
  signedFile_of_storable rfl (by decide) identifying_storable

/-- The sample after its first phase was invoked. -/
theorem sample_invoked {C : MigrationSystem → MigrationEvent → Prop}
    (hC : ∀ u, C u (.go sampleNow) ∧ C u .land) : ∃ s raw,
      (migrationMachine sampleHost.toHmacHost samplePlan.migrationId).Reaches C
        (startMigration .missing samplePlan) s ∧
      signedFile sampleHost.toHmacHost identifying = .ok raw ∧
      s = ⟨.whole identifying raw, .run ⟨identifying, 0, .handling⟩, [],
        [.invoked .identifyResources, .persisted 0 .inFlight, .persisted 0 .inFlight]⟩ := by
  obtain ⟨raw, hraw⟩ := sample_file
  obtain ⟨raw', hraw'⟩ := identifying_file
  let M := migrationMachine sampleHost.toHmacHost samplePlan.migrationId
  have hstart : (startMigration .missing samplePlan).call =
      .run ⟨sampleState, 0, .saving .started .mkdir⟩ := rfl
  have hstarted := reaches_saved (Automaton.Reaches.refl (M := M) _) hstart hraw sampleNow hC
  have hentering := hstarted.step (e := MigrationEvent.go sampleNow) (.inr ⟨_, rfl, trivial⟩) (hC _).1
  have henter : (M.next (((startMigration .missing samplePlan).store sampleState raw).setRun
      ⟨sampleState, 0, .saving .started .written⟩) (.go sampleNow)).call =
        .run ⟨identifying, 0, .saving .entered .mkdir⟩ := rfl
  have hentered := reaches_saved hentering henter hraw' sampleNow hC
  have hinvoked := hentered.step (e := MigrationEvent.go sampleNow) (.inr ⟨_, rfl, trivial⟩) (hC _).1
  exact ⟨_, raw', hinvoked, hraw', rfl⟩

end Homelab
