import Homelab.Automaton
import Homelab.PendingAction

/-! `delay.ts` for one action id: the file of the record, Node's timers, the module's maps
and the calls that wait on the file system. Between two awaits a call runs without
interruption; what it awaits lands on the file at some moment before it goes on. -/
namespace Homelab
open Js

/-! ### Timers -/

def timeoutMax : ℤ := 2147483647

/-- The delay with which Node's `setTimeout` runs: 1 ms for one that it cannot hold. -/
def timerDelay (delay : ℤ) : ℤ := if 1 ≤ delay ∧ delay ≤ timeoutMax then delay else 1

/-- The times that a `Date` can hold are at most this far from the epoch. -/
def maxTime : ℕ := 8640000000000000

theorem one_le_timerDelay (delay : ℤ) : 1 ≤ timerDelay delay := by
  rw [timerDelay]
  split_ifs with h
  · exact h.1
  · exact le_rfl

theorem le_timerDelay {delay : ℤ} (h : delay ≤ timeoutMax) : delay ≤ timerDelay delay := by
  rw [timerDelay]
  split_ifs with hrange
  · exact le_rfl
  · omega

theorem timerDelay_exceeds {delay : ℤ} (h : timeoutMax < delay) : timerDelay delay = 1 :=
  if_neg fun hrange => absurd hrange.2 (not_le.mpr h)

/-- A timer that has not run yet. -/
structure Timer where
  handle : ℕ
  due : ℤ

/-! ### Calls -/

/-- The calls that read the record first. -/
inductive Reader
  | cancel
  | fire
  | load

/-- What a call awaits, what has landed for it, or how it has ended. -/
inductive DelayCall
  | persisting (r : PendingAction)
  | persisted (r : PendingAction)
  | waiting (r : PendingAction)
  | resolved (r : PendingAction) (time : ℕ)
  | rejected
  | reading (reader : Reader)
  | read (reader : Reader) (r : Option PendingAction)
  | writing (reader : Reader) (r : PendingAction)
  | written (reader : Reader) (r : PendingAction)
  | done

/-- The call waits for the file system. -/
def DelayCall.awaits : DelayCall → Prop
  | .persisting _ => True
  | .reading _ => True
  | .writing _ _ => True
  | _ => False

/-- What the call has awaited is there. -/
def DelayCall.ready : DelayCall → Prop
  | .persisted _ => True
  | .read _ _ => True
  | .written _ _ => True
  | _ => False

/-- The call when the file system refuses what it awaits. -/
def DelayCall.fail : DelayCall → DelayCall
  | .persisting _ => .rejected
  | .persisted _ => .rejected
  | _ => .done

/-- The call when its process dies. -/
def DelayCall.die : DelayCall → DelayCall
  | .resolved r time => .resolved r time
  | .rejected => .rejected
  | _ => .done

def DelayCall.resolve (time : ℕ) : DelayCall → DelayCall
  | .waiting r => .resolved r time
  | c => c

def DelayCall.reject : DelayCall → DelayCall
  | .waiting _ => .rejected
  | c => c

/-! ### States -/

/-- The clock, the file of the record and every record that was written to it, latest
first; the timers of the id that have not run; the entries of the id in `liveTimers`,
`pendingResolvers` and `pendingRejecters`; and the calls in the order they were made. -/
structure DelayState where
  clock : ℕ
  file : Option PendingAction
  landed : List PendingAction
  armed : List Timer
  handles : ℕ
  liveTimer : Option ℕ
  resolver : Option ℕ
  rejecter : Option ℕ
  calls : List DelayCall

def DelayState.fresh (clock : ℕ) (file : Option PendingAction) : DelayState :=
  ⟨clock, file, [], [], 0, none, none, none, []⟩

namespace DelayState

def call (s : DelayState) (i : ℕ) : DelayCall := s.calls.getD i .done

def setCall (s : DelayState) (i : ℕ) (c : DelayCall) : DelayState :=
  { s with calls := s.calls.set i c }

def write (s : DelayState) (r : PendingAction) : DelayState :=
  { s with file := some r, landed := r :: s.landed }

/-- `liveTimers.set(id, setTimeout(..., delay))` -/
def arm (s : DelayState) (delay : ℤ) : DelayState :=
  { s with
    armed := ⟨s.handles, s.clock+timerDelay delay⟩ :: s.armed
    handles := s.handles+1
    liveTimer := some s.handles }

/-- `clearTimeout` on the entry in `liveTimers`, which is deleted. -/
def clearTimer (s : DelayState) : DelayState :=
  { s with armed := s.armed.filter fun t => some t.handle ≠ s.liveTimer, liveTimer := none }

/-- Settles the call whose `reject` is in the map. -/
def rejectPending (s : DelayState) : DelayState :=
  match s.rejecter with
  | none => s
  | some j => { s with
      resolver := none
      rejecter := none
      calls := s.calls.modify j DelayCall.reject }

/-- Settles the call whose `resolve` is in the map. -/
def resolvePending (s : DelayState) : DelayState :=
  match s.resolver with
  | none => s
  | some j => { s with
      resolver := none
      rejecter := none
      calls := s.calls.modify j (DelayCall.resolve s.clock) }

/-- What the call awaits takes effect. -/
def land (s : DelayState) (i : ℕ) : DelayCall → DelayState
  | .persisting r => (s.write r).setCall i (.persisted r)
  | .reading reader => s.setCall i (.read reader s.file)
  | .writing reader r => (s.write r).setCall i (.written reader r)
  | _ => s

/-- The call goes on from the pending record that it has read. -/
def decide (s : DelayState) (i : ℕ) (r : PendingAction) : Reader → DelayState
  | .cancel => s.setCall i (.writing .cancel { r with status := .cancelled })
  | .fire => s.setCall i (.writing .fire { r with status := .fired })
  | .load =>
    let remaining := r.fireAt-s.clock
    -- a record that is past due is returned to the daemon, which fires it
    if remaining ≤ 0 then s.setCall i .done else (s.arm remaining).setCall i .done

/-- The call runs on to its next await or its end. -/
def resume (s : DelayState) (i : ℕ) : DelayCall → DelayState
  | .persisted r =>
    ({ s with resolver := some i, rejecter := some i }.arm r.delayMs).setCall i (.waiting r)
  | .read _ none => s.setCall i .done
  | .read reader (some r) => if r.status = .pending then s.decide i r reader else s.setCall i .done
  | .written .cancel _ => (s.setCall i .done).clearTimer.rejectPending
  | .written .fire _ => { s.setCall i .done with liveTimer := none }.resolvePending
  | _ => s

end DelayState

/-! ### What is left alone -/

namespace DelayState

variable (s : DelayState) (i : ℕ)

@[simp] theorem landed_setCall (c : DelayCall) : (s.setCall i c).landed = s.landed := rfl

@[simp] theorem landed_arm (delay : ℤ) : (s.arm delay).landed = s.landed := rfl

@[simp] theorem landed_clearTimer : s.clearTimer.landed = s.landed := rfl

@[simp] theorem landed_rejectPending : s.rejectPending.landed = s.landed := by
  rw [rejectPending]
  cases s.rejecter <;> rfl

@[simp] theorem landed_resolvePending : s.resolvePending.landed = s.landed := by
  rw [resolvePending]
  cases s.resolver <;> rfl

@[simp] theorem landed_decide (r : PendingAction) (reader : Reader) :
    (s.decide i r reader).landed = s.landed := by
  cases reader with
  | load =>
    simp only [decide]
    split_ifs <;> rfl
  | _ => rfl

/-- Only what lands is written. -/
@[simp] theorem landed_resume (c : DelayCall) : (s.resume i c).landed = s.landed := by
  cases c with
  | persisted r => rfl
  | read reader r =>
    cases r with
    | none => rfl
    | some r =>
      rw [resume]
      split_ifs <;> simp
  | written reader r => cases reader <;> simp [resume]
  | _ => rfl

end DelayState

/-! ### Events -/

inductive DelayEvent
  | tick (time : ℕ)
  | schedule (delayMs : ℤ) (dryRunReport : Option JsString)
  | cancel
  | load
  | restart
  | land (i : ℕ)
  | resume (i : ℕ)
  | fail (i : ℕ)
  | timer (t : Timer)

/-- `scheduleDelayedAction` up to its first await; `toISOString` throws on an invalid
date. -/
def scheduleCall (actionId : JsString) (now : ℕ) (delayMs : ℤ) (dryRunReport : Option JsString) :
    DelayCall :=
  if (now+delayMs).natAbs ≤ maxTime then
    .persisting ⟨actionId, now, now+delayMs, delayMs, dryRunReport, .pending⟩
  else .rejected

/-- Everything that can happen to one action id. -/
def delayMachine (actionId : JsString) : Automaton DelayState DelayEvent where
  allowed s
    | .tick time => s.clock ≤ time
    | .land i => (s.call i).awaits
    | .resume i => (s.call i).ready
    | .fail i => (s.call i).awaits ∨ (s.call i).ready
    | .timer t => t ∈ s.armed ∧ t.due ≤ s.clock
    | _ => True
  next s
    | .tick time => { s with clock := time }
    | .schedule delayMs dryRunReport =>
      { s with calls := s.calls ++ [scheduleCall actionId s.clock delayMs dryRunReport] }
    | .cancel => { s with calls := s.calls ++ [.reading .cancel] }
    | .load => { s with calls := s.calls ++ [.reading .load] }
    | .restart => { s with
        armed := []
        liveTimer := none
        resolver := none
        rejecter := none
        calls := s.calls.map DelayCall.die }
    | .land i => s.land i (s.call i)
    | .resume i => s.resume i (s.call i)
    | .fail i => s.setCall i (s.call i).fail
    | .timer t => { s with
        armed := s.armed.filter fun t' => t'.handle ≠ t.handle
        calls := s.calls ++ [.reading .fire] }

end Homelab
