import Homelab.DelayedAction

/-! Cancelling against firing: a delayed action is decided once, as long as no write lands
over a decision that has been made since its writer read the record. -/
namespace Homelab
open Js

/-! ### What calls know -/

theorem DelayState.call_of_forall {Q : DelayCall → Prop} {s : DelayState}
    (h : ∀ c ∈ s.calls, Q c) (hdone : Q .done) (i : ℕ) : Q (s.call i) := by
  rw [DelayState.call, List.getD_eq_getElem?_getD]
  cases hi : s.calls[i]? with
  | none => exact hdone
  | some c => exact h c (List.mem_of_getElem? hi)

/-- The status that a reader writes. -/
def Reader.decision : Reader → Option PendingStatus
  | .cancel => some .cancelled
  | .fire => some .fired
  | .load => none

/-- The call writes its reader's decision, and a resolved promise was fired. -/
def Truthful (landed : List PendingAction) : DelayCall → Prop
  | .writing reader r => reader.decision = some r.status
  | .written reader r => reader.decision = some r.status ∧ r ∈ landed
  | .resolved _ _ => ∃ r ∈ landed, r.status = .fired
  | _ => True

theorem Truthful.mono {landed : List PendingAction} (r : PendingAction) {c : DelayCall}
    (h : Truthful landed c) : Truthful (r :: landed) c := by
  cases c with
  | written reader r' => exact ⟨h.1, List.mem_cons_of_mem _ h.2⟩
  | resolved r' time =>
    obtain ⟨r'', hmem, hfired⟩ := h
    exact ⟨r'', List.mem_cons_of_mem _ hmem, hfired⟩
  | writing reader r' => exact h
  | _ => trivial

/-- The record that the call writes when what it awaits lands. -/
def DelayCall.writes : DelayCall → Option PendingAction
  | .persisting r => some r
  | .writing _ r => some r
  | _ => none

/-- A write lands while no other decision has been persisted. -/
def Undecided (s : DelayState) : DelayEvent → Prop
  | .land i => ∀ r, (s.call i).writes = some r →
      ∀ r' ∈ s.landed, r'.status ≠ .pending → r' = r
  | _ => True

/-- The file has the decision that has landed, and the calls know what they write. -/
structure DecidedOnce (s : DelayState) : Prop where
  file : ∀ r ∈ s.landed, r.status ≠ .pending → s.file = some r
  calls : ∀ c ∈ s.calls, Truthful s.landed c

variable {actionId : JsString} {s t : DelayState}

theorem DecidedOnce.setCall (h : DecidedOnce s) (i : ℕ) {c : DelayCall} (hc : Truthful s.landed c) :
    DecidedOnce (s.setCall i c) := ⟨h.file, Automaton.forall_set h.calls i hc⟩

theorem DecidedOnce.arm (h : DecidedOnce s) (delay : ℤ) : DecidedOnce (s.arm delay) :=
  ⟨h.file, h.calls⟩

theorem DecidedOnce.write (h : DecidedOnce s) {r : PendingAction}
    (hundecided : ∀ r' ∈ s.landed, r'.status ≠ .pending → r' = r) : DecidedOnce (s.write r) := by
  constructor
  · intro r' hmem hdecided
    rcases List.mem_cons.mp hmem with rfl | hmem
    · rfl
    · rw [hundecided r' hmem hdecided]
      rfl
  · exact fun c hc => (h.calls c hc).mono r

theorem DecidedOnce.rejectPending (h : DecidedOnce s) : DecidedOnce s.rejectPending := by
  rw [DelayState.rejectPending]
  cases s.rejecter with
  | none => exact h
  | some j =>
    refine ⟨h.file, Automaton.forall_modify h.calls ?_ j⟩
    intro c hc
    cases c <;> exact hc

theorem DecidedOnce.resolvePending (h : DecidedOnce s)
    (hfired : ∃ r ∈ s.landed, r.status = .fired) : DecidedOnce s.resolvePending := by
  rw [DelayState.resolvePending]
  cases s.resolver with
  | none => exact h
  | some j =>
    refine ⟨h.file, Automaton.forall_modify h.calls ?_ j⟩
    intro c hc
    cases c with
    | waiting r => exact hfired
    | _ => exact hc

theorem DecidedOnce.land (h : DecidedOnce s) (i : ℕ) (hundecided : Undecided s (.land i)) :
    DecidedOnce (s.land i (s.call i)) := by
  have htruth := DelayState.call_of_forall h.calls trivial i
  rw [Undecided] at hundecided
  cases hcall : s.call i with
  | persisting r =>
    rw [hcall] at hundecided
    exact (h.write (hundecided r rfl)).setCall i trivial
  | reading reader => exact h.setCall i trivial
  | writing reader r =>
    rw [hcall] at hundecided htruth
    exact (h.write (hundecided r rfl)).setCall i ⟨htruth, List.mem_cons_self ..⟩
  | _ => exact h

theorem DecidedOnce.decide (h : DecidedOnce s) (i : ℕ) (r : PendingAction) (reader : Reader) :
    DecidedOnce (s.decide i r reader) := by
  cases reader with
  | cancel => exact h.setCall i rfl
  | fire => exact h.setCall i rfl
  | load =>
    simp only [DelayState.decide]
    split_ifs
    · exact h.setCall i trivial
    · exact (h.arm _).setCall i trivial

theorem DecidedOnce.resume (h : DecidedOnce s) (i : ℕ) : DecidedOnce (s.resume i (s.call i)) := by
  have htruth := DelayState.call_of_forall h.calls trivial i
  cases hcall : s.call i with
  | persisted r =>
    have hmaps : DecidedOnce { s with resolver := some i, rejecter := some i } := ⟨h.file, h.calls⟩
    exact (hmaps.arm r.delayMs).setCall i trivial
  | read reader r =>
    cases r with
    | none => exact h.setCall i trivial
    | some r =>
      rw [DelayState.resume]
      split_ifs
      · exact h.decide i r reader
      · exact h.setCall i trivial
  | written reader r =>
    rw [hcall] at htruth
    have hdone := h.setCall i (c := .done) trivial
    cases reader with
    | cancel => exact DecidedOnce.rejectPending ⟨hdone.file, hdone.calls⟩
    | fire =>
      refine DecidedOnce.resolvePending ⟨hdone.file, hdone.calls⟩ ⟨r, htruth.2, ?_⟩
      exact (Option.some.inj htruth.1).symm
    | load => cases htruth.1
  | _ => exact h

theorem scheduleCall_truthful (landed : List PendingAction) (now : ℕ) (delayMs : ℤ)
    (report : Option JsString) : Truthful landed (scheduleCall actionId now delayMs report) := by
  rw [scheduleCall]
  split_ifs
  · trivial
  · trivial

theorem DecidedOnce.next {e : DelayEvent} (h : DecidedOnce s) (hundecided : Undecided s e) :
    DecidedOnce ((delayMachine actionId).next s e) := by
  cases e with
  | tick time => exact ⟨h.file, h.calls⟩
  | schedule delayMs report => exact ⟨h.file, Automaton.forall_snoc h.calls (scheduleCall_truthful ..)⟩
  | cancel => exact ⟨h.file, Automaton.forall_snoc h.calls trivial⟩
  | load => exact ⟨h.file, Automaton.forall_snoc h.calls trivial⟩
  | restart =>
    refine ⟨h.file, List.forall_mem_map.mpr ?_⟩
    intro c hc
    have htruth := h.calls c hc
    cases c with
    | resolved r time => exact htruth
    | _ => trivial
  | land i => exact h.land i hundecided
  | resume i => exact h.resume i
  | fail i =>
    apply h.setCall i
    cases s.call i <;> trivial
  | timer t => exact ⟨h.file, Automaton.forall_snoc h.calls trivial⟩

theorem landed_next (e : DelayEvent) {r : PendingAction} (h : r ∈ s.landed) :
    r ∈ ((delayMachine actionId).next s e).landed := by
  cases e with
  | land i =>
    change r ∈ (s.land i (s.call i)).landed
    cases s.call i with
    | persisting r' => exact List.mem_cons_of_mem _ h
    | writing reader r' => exact List.mem_cons_of_mem _ h
    | _ => exact h
  | resume i =>
    change r ∈ (s.resume i (s.call i)).landed
    rwa [DelayState.landed_resume]
  | _ => exact h

/-- The next event changes a decided record exactly when it does not meet the condition. -/
theorem DecidedOnce.keeps_iff {e : DelayEvent} (h : DecidedOnce s)
    (hdecided : ∃ r ∈ s.landed, r.status ≠ .pending) :
    ((delayMachine actionId).next s e).file = s.file ↔ Undecided s e := by
  obtain ⟨d, hd, hstatus⟩ := hdecided
  have hfile := h.file d hd hstatus
  constructor
  · intro hkeeps
    cases e with
    | land i =>
      intro r hwrites r' hr' hstatus'
      have hfile' := h.file r' hr' hstatus'
      have hland : ((delayMachine actionId).next s (.land i)).file = some r := by
        change (s.land i (s.call i)).file = some r
        cases hcall : s.call i with
        | persisting r'' =>
          rw [hcall] at hwrites
          exact hwrites
        | writing reader r'' =>
          rw [hcall] at hwrites
          exact hwrites
        | _ =>
          rw [hcall] at hwrites
          cases hwrites
      rw [hland, hfile'] at hkeeps
      exact (Option.some.inj hkeeps).symm
    | _ => trivial
  · intro hundecided
    rw [(h.next hundecided).file d (landed_next e hd) hstatus, hfile]

def sampleId : JsString := js "mig-1"

/-- A cancel reads the pending record, the timer runs and reads it too, and both write. -/
def racingEvents : List DelayEvent := [.schedule 1000 none, .land 0, .resume 0, .cancel, .land 1,
  .tick 1000, .timer ⟨0, 1000⟩, .land 2, .resume 1, .land 1, .resume 2, .land 2, .resume 2]

theorem racingEvents_permitted :
    (delayMachine sampleId).Permits Automaton.anyEvent (.fresh 0 none) racingEvents := by
  refine ⟨trivial, trivial, trivial, trivial, trivial, trivial, trivial, trivial, trivial, trivial,
    ?_, trivial, ?_, trivial, trivial, trivial, trivial, trivial, trivial, trivial, trivial, trivial,
    trivial, trivial, trivial, trivial, trivial⟩
  · exact Nat.zero_le 1000
  · exact ⟨List.mem_singleton.mpr rfl, le_rfl⟩

def racedState : DelayState := (delayMachine sampleId).after (.fresh 0 none) racingEvents

/-- A cancel that reads and writes before the timer runs. -/
def quietEvents : List DelayEvent := [.schedule 1000 none, .land 0, .resume 0, .cancel, .land 1,
  .resume 1, .land 1, .resume 1]

theorem quietEvents_permitted :
    (delayMachine sampleId).Permits Undecided (.fresh 0 none) quietEvents := by
  have hnone {P : Prop} {r : PendingAction} (h : (none : Option PendingAction) = some r) : P := by
    cases h
  refine ⟨trivial, trivial, trivial, ?_, trivial, trivial, trivial, trivial, trivial, ?_, trivial,
    trivial, trivial, ?_, trivial, trivial, trivial⟩
  · exact fun r _ r' hr' => absurd hr' List.not_mem_nil
  · exact fun r hr => hnone hr
  · intro r _ r' hr' hdecided
    rw [List.mem_singleton.mp hr'] at hdecided
    exact absurd rfl hdecided

end Homelab
