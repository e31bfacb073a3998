import Homelab.DelayTimely

/-! Scheduling an id again, across restarts: a promise resolves no earlier than the time
that its own call persisted, as long as a timer is armed only when the id has no other. -/
namespace Homelab
open Js

/-- The call arms a timer when it goes on. -/
def DelayCall.arms (now : ℕ) : DelayCall → Prop
  | .persisted _ => True
  | .read .load (some r) => r.status = .pending ∧ now < r.fireAt
  | _ => False

/-- The call is on its way to resolve whatever promise is in the map. -/
def DelayCall.firing : DelayCall → Prop
  | .reading reader => reader = .fire
  | .read reader r => reader = .fire ∧ ∃ r', r = some r' ∧ r'.status = .pending
  | .writing reader _ => reader = .fire
  | .written reader _ => reader = .fire
  | _ => False

/-- Node can hold the delays; a timer is armed when no other is; and a new promise is put
in the map when no earlier timer is about to resolve it before its time. -/
def Alone (s : DelayState) : DelayEvent → Prop
  | .schedule delayMs _ => delayMs ≤ timeoutMax
  | .resume i => ((s.call i).arms s.clock → s.armed = []) ∧
      ∀ r, s.call i = .persisted r → ∀ c ∈ s.calls, c.firing → r.fireAt ≤ s.clock
  | _ => True

/-- Every promise that has resolved did so at its time or later, and at most one timer of
the id is live. -/
def OnTime (s : DelayState) : Prop :=
  (∀ (r : PendingAction) (time : ℕ), .resolved r time ∈ s.calls → r.fireAt ≤ time) ∧
    s.armed.length ≤ 1

/-- What a call that schedules knows of its time, and a resolved one of its end. -/
def OnTimeCall (now : ℕ) : DelayCall → Prop
  | .persisting r => r.fireAt ≤ now+r.delayMs ∧ r.delayMs ≤ timeoutMax
  | .persisted r => r.fireAt ≤ now+r.delayMs ∧ r.delayMs ≤ timeoutMax
  | .resolved r time => r.fireAt ≤ time
  | _ => True

/-- The promise in the map is due no later than the only timer, and once that has run it
is due. -/
structure Aligned (s : DelayState) : Prop where
  maps : s.resolver = s.rejecter
  calls : ∀ c ∈ s.calls, OnTimeCall s.clock c
  armed : s.armed.length ≤ 1
  waits : ∀ j, s.resolver = some j → ∃ r, s.call j = .waiting r ∧
    (∀ t ∈ s.armed, r.fireAt ≤ t.due) ∧
    (s.armed = [] ∨ (∃ c ∈ s.calls, c.firing) → r.fireAt ≤ s.clock)

variable {actionId : JsString} {s : DelayState}

/-! ### Calls that change in place -/

theorem DelayState.call_setCall_ne {i j : ℕ} (h : i ≠ j) (c : DelayCall) :
    (s.setCall i c).call j = s.call j := by
  rw [DelayState.call, DelayState.setCall, List.getD_eq_getElem?_getD, List.getElem?_set_ne h,
    ← List.getD_eq_getElem?_getD]
  rfl

theorem DelayState.call_mem {i : ℕ} {c : DelayCall} (h : s.call i = c) (hc : c ≠ .done) :
    c ∈ s.calls := by
  rw [DelayState.call, List.getD_eq_getElem?_getD] at h
  cases hi : s.calls[i]? with
  | none =>
    rw [hi] at h
    exact absurd h.symm hc
  | some c' =>
    rw [hi] at h
    obtain rfl : c' = c := h
    exact List.mem_of_getElem? hi

/-- A call that goes on as `c'` is not the one that waits, and fires only if it did before. -/
theorem Aligned.setCall (h : Aligned s) (i : ℕ) {c' : DelayCall} (hc : OnTimeCall s.clock c')
    (hwait : ∀ r, s.call i ≠ .waiting r) (hfiring : c'.firing → (s.call i).firing) :
    Aligned (s.setCall i c') := by
  refine ⟨h.maps, Automaton.forall_set h.calls i hc, h.armed, ?_⟩
  intro j hj
  obtain ⟨r, hr, hdue, hpast⟩ := h.waits j hj
  have hne : i ≠ j := by
    rintro rfl
    exact hwait r hr
  refine ⟨r, (DelayState.call_setCall_ne hne c').trans hr, hdue, ?_⟩
  rintro (hempty | ⟨c, hmem, hfires⟩)
  · exact hpast (.inl hempty)
  · refine hpast (.inr ?_)
    rcases List.mem_or_eq_of_mem_set hmem with hmem | rfl
    · exact ⟨c, hmem, hfires⟩
    · have hold := hfiring hfires
      refine ⟨s.call i, DelayState.call_mem rfl ?_, hold⟩
      intro hdone
      rw [hdone] at hold
      exact hold

theorem Aligned.snoc (h : Aligned s) {c' : DelayCall} (hc : OnTimeCall s.clock c')
    (hfiring : c'.firing → ∀ j r, s.resolver = some j → s.call j = .waiting r →
      r.fireAt ≤ s.clock) :
    Aligned { s with calls := s.calls ++ [c'] } := by
  refine ⟨h.maps, Automaton.forall_snoc h.calls hc, h.armed, ?_⟩
  intro j hj
  obtain ⟨r, hr, hdue, hpast⟩ := h.waits j hj
  refine ⟨r, ?_, hdue, ?_⟩
  · have hlt : j < s.calls.length := by
      by_contra hge
      rw [DelayState.call, List.getD_eq_getElem?_getD, List.getElem?_eq_none (not_lt.mp hge)] at hr
      cases hr
    rw [DelayState.call, List.getD_eq_getElem?_getD, List.getElem?_append_left hlt,
      ← List.getD_eq_getElem?_getD]
    exact hr
  · rintro (hempty | ⟨c, hmem, hfires⟩)
    · exact hpast (.inl hempty)
    · rcases List.mem_append.mp hmem with hmem | hmem
      · exact hpast (.inr ⟨c, hmem, hfires⟩)
      · rw [List.mem_singleton.mp hmem] at hfires
        exact hfiring hfires j r hj hr

theorem Aligned.done (h : Aligned s) {i : ℕ} (hwait : ∀ r, s.call i ≠ .waiting r) :
    Aligned (s.setCall i .done) := h.setCall i trivial hwait fun hfires => hfires.elim

theorem Aligned.write (h : Aligned s) (r : PendingAction) : Aligned (s.write r) :=
  ⟨h.maps, h.calls, h.armed, h.waits⟩

/-- Settling the promise in the map empties the map. -/
theorem aligned_settle {f : DelayCall → DelayCall} {j : ℕ}
    (hcalls : ∀ c ∈ s.calls, OnTimeCall s.clock c) (harmed : s.armed.length ≤ 1)
    (hf : ∀ c, s.calls[j]? = some c → OnTimeCall s.clock (f c)) :
    Aligned { s with resolver := none, rejecter := none, calls := s.calls.modify j f } := by
  refine ⟨rfl, ?_, harmed, fun j hj => (by cases hj)⟩
  intro c hc
  obtain ⟨k, hk⟩ := List.mem_iff_getElem?.mp hc
  rw [List.getElem?_modify] at hk
  obtain ⟨c', hc', hval⟩ := Option.map_eq_some_iff.mp hk
  split_ifs at hval with hjk
  · subst hjk
    rw [← hval]
    exact hf c' hc'
  · rw [← hval]
    exact hcalls c' (List.mem_of_getElem? hc')

theorem aligned_rejectPending (hmaps : s.resolver = s.rejecter)
    (hcalls : ∀ c ∈ s.calls, OnTimeCall s.clock c) (harmed : s.armed.length ≤ 1) :
    Aligned s.rejectPending := by
  rw [DelayState.rejectPending]
  cases hrejecter : s.rejecter with
  | none =>
    refine ⟨hmaps, hcalls, harmed, ?_⟩
    intro j hj
    rw [hmaps, hrejecter] at hj
    cases hj
  | some j =>
    refine aligned_settle hcalls harmed ?_
    intro c hget
    have hcall := hcalls c (List.mem_of_getElem? hget)
    cases c with
    | waiting r => trivial
    | _ => exact hcall

theorem Aligned.resolvePending (h : Aligned s)
    (hdue : ∀ j r, s.resolver = some j → s.call j = .waiting r → r.fireAt ≤ s.clock) :
    Aligned s.resolvePending := by
  rw [DelayState.resolvePending]
  cases hresolver : s.resolver with
  | none => exact h
  | some j =>
    refine aligned_settle h.calls h.armed ?_
    intro c hget
    have hcall := h.calls c (List.mem_of_getElem? hget)
    cases c with
    | waiting r =>
      refine hdue j r hresolver ?_
      rw [DelayState.call, List.getD_eq_getElem?_getD, hget]
      rfl
    | _ => exact hcall

theorem Aligned.land (h : Aligned s) (i : ℕ) : Aligned (s.land i (s.call i)) := by
  have hcall := DelayState.call_of_forall h.calls trivial i
  -- a write changes the file, and no call
  have hwritten (r : PendingAction) : (s.write r).call i = s.call i := rfl
  cases hc : s.call i with
  | persisting r =>
    rw [hc] at hcall
    refine (h.write r).setCall i hcall ?_ fun hfires => hfires.elim
    intro r' hr'
    rw [hwritten r, hc] at hr'
    cases hr'
  | reading reader =>
    refine h.setCall i trivial ?_ ?_
    · intro r' hr'
      rw [hc] at hr'
      cases hr'
    · intro hfires
      rw [hc]
      exact hfires.1
  | writing reader r =>
    refine (h.write r).setCall i trivial ?_ ?_
    · intro r' hr'
      rw [hwritten r, hc] at hr'
      cases hr'
    · intro hfires
      rw [hwritten r, hc]
      exact hfires
  | _ => exact h

/-- The new promise is in the map, and its timer is the only one. -/
theorem Aligned.arms (h : Aligned s) {i : ℕ} {r : PendingAction} (hc : s.call i = .persisted r)
    (hempty : s.armed = []) (hfires : ∀ c ∈ s.calls, c.firing → r.fireAt ≤ s.clock) :
    Aligned (s.resume i (.persisted r)) := by
  have hmem : DelayCall.persisted r ∈ s.calls := DelayState.call_mem hc (by simp)
  obtain ⟨hdue, hmax⟩ := h.calls _ hmem
  have hle := le_timerDelay hmax
  refine ⟨rfl, Automaton.forall_set h.calls i trivial, ?_, ?_⟩
  · change (_ :: s.armed).length ≤ 1
    rw [hempty]
    exact le_rfl
  · intro j hj
    obtain rfl := Option.some.inj hj
    have hlt : i < s.calls.length := by
      by_contra hge
      rw [DelayState.call, List.getD_eq_getElem?_getD, List.getElem?_eq_none (not_lt.mp hge)] at hc
      cases hc
    refine ⟨r, DelayState.call_setCall hlt _, ?_, ?_⟩
    · change ∀ t ∈ _ :: s.armed, r.fireAt ≤ t.due
      rw [hempty]
      refine List.forall_mem_singleton.mpr ?_
      change r.fireAt ≤ s.clock+timerDelay r.delayMs
      omega
    · rintro (hnone | ⟨c, hmem', hfiring⟩)
      · cases hnone
      · rcases List.mem_or_eq_of_mem_set hmem' with hmem' | rfl
        · exact hfires c hmem' hfiring
        · exact hfiring.elim

/-- A restored timer is the only one; an older promise in the map is due by then. -/
theorem Aligned.arm (h : Aligned s) (hempty : s.armed = []) (delay : ℤ) : Aligned (s.arm delay) := by
  refine ⟨h.maps, h.calls, ?_, ?_⟩
  · change (_ :: s.armed).length ≤ 1
    rw [hempty]
    exact le_rfl
  · intro j hj
    obtain ⟨r, hr, _, hpast⟩ := h.waits j hj
    have hclock := hpast (.inl hempty)
    have hone := one_le_timerDelay delay
    refine ⟨r, hr, ?_, fun _ => hclock⟩
    change ∀ t ∈ _ :: s.armed, r.fireAt ≤ t.due
    rw [hempty]
    refine List.forall_mem_singleton.mpr ?_
    change r.fireAt ≤ s.clock+timerDelay delay
    omega

theorem Aligned.resume (h : Aligned s) (i : ℕ) (halone : Alone s (.resume i)) :
    Aligned (s.resume i (s.call i)) := by
  obtain ⟨hempty, hfires⟩ := halone
  have hdone (hready : (s.call i).ready) : Aligned (s.setCall i .done) := by
    refine h.done ?_
    intro r hr
    rw [hr] at hready
    exact hready
  cases hc : s.call i with
  | persisted r =>
    rw [hc] at hempty
    exact h.arms hc (hempty trivial) (hfires r hc)
  | read reader r =>
    have hend := hdone (by rw [hc]; trivial)
    cases r with
    | none => exact hend
    | some r =>
      rw [DelayState.resume]
      split_ifs with hpending
      · cases reader with
        | load =>
          simp only [DelayState.decide]
          split_ifs with hpast
          · exact hend
          · rw [hc] at hempty
            exact (h.arm (hempty ⟨hpending, by omega⟩) _).done fun r' hr' => by
              rw [show (s.arm _).call i = s.call i from rfl, hc] at hr'
              cases hr'
        | cancel =>
          refine h.setCall i trivial (fun r' hr' => ?_) fun hfiring => (by cases hfiring)
          rw [hc] at hr'
          cases hr'
        | fire =>
          refine h.setCall i trivial (fun r' hr' => ?_) fun _ => ?_
          · rw [hc] at hr'
            cases hr'
          · rw [hc]
            exact ⟨rfl, r, rfl, hpending⟩
      · exact hend
  | written reader r =>
    have hend := hdone (by rw [hc]; trivial)
    cases reader with
    | load => exact h
    | cancel =>
      refine aligned_rejectPending h.maps hend.calls ?_
      exact (List.length_filter_le _ _).trans h.armed
    | fire =>
      refine Aligned.resolvePending ⟨hend.maps, hend.calls, hend.armed, hend.waits⟩ ?_
      -- the call fired while the promise was in the map, so the promise is due
      intro j r' hj hwaiting
      obtain ⟨r'', hr'', _, hpast⟩ := h.waits j hj
      have hne : i ≠ j := by
        rintro rfl
        rw [hc] at hr''
        cases hr''
      have hsame : r' = r'' := by
        have hcall : (s.setCall i .done).call j = .waiting r' := hwaiting
        rw [DelayState.call_setCall_ne hne, hr''] at hcall
        cases hcall
        rfl
      rw [hsame]
      exact hpast (.inr ⟨_, DelayState.call_mem hc (by simp), rfl⟩)
  | _ => exact h

/-- What every event keeps that meets the condition. -/
theorem Aligned.next (h : Aligned s) {e : DelayEvent} (ha : (delayMachine actionId).allowed s e)
    (halone : Alone s e) : Aligned ((delayMachine actionId).next s e) := by
  cases e with
  | tick time =>
    -- only the clock moves, and every bound on it is one from below
    have hle : (s.clock : ℤ) ≤ time := Int.ofNat_le.mpr ha
    refine ⟨h.maps, ?_, h.armed, ?_⟩
    · intro c hc
      have hcall := h.calls c hc
      cases c with
      | persisting r => exact ⟨hcall.1.trans (Int.add_le_add_right hle _), hcall.2⟩
      | persisted r => exact ⟨hcall.1.trans (Int.add_le_add_right hle _), hcall.2⟩
      | _ => exact hcall
    · intro j hj
      obtain ⟨r, hr, hdue, hpast⟩ := h.waits j hj
      exact ⟨r, hr, hdue, fun hend => (hpast hend).trans hle⟩
  | schedule delayMs dryRunReport =>
    have hmax : delayMs ≤ timeoutMax := halone
    refine h.snoc ?_ ?_
    · rw [scheduleCall]
      split_ifs
      · exact ⟨le_rfl, hmax⟩
      · trivial
    · rw [scheduleCall]
      split_ifs <;> exact fun hfires => hfires.elim
  | cancel => exact h.snoc trivial fun hfires => (by cases hfires)
  | load => exact h.snoc trivial fun hfires => (by cases hfires)
  | restart =>
    -- both maps are empty again; of the calls only those that had returned are kept
    refine ⟨rfl, ?_, Nat.zero_le _, fun j hj => (by cases hj)⟩
    intro c hc
    obtain ⟨c', hc', rfl⟩ := List.mem_map.mp hc
    have hold := h.calls c' hc'
    cases c' with
    | resolved r time => exact hold
    | _ => trivial
  | land i => exact h.land i
  | resume i => exact h.resume i halone
  | fail i =>
    have hawaits : (s.call i).awaits ∨ (s.call i).ready := ha
    refine h.setCall i ?_ ?_ ?_
    · cases s.call i <;> trivial
    · intro r hr
      rw [hr] at hawaits
      exact hawaits.elim id id
    · cases s.call i <;> exact fun hfires => hfires.elim
  | timer t =>
    obtain ⟨hmem, hdue⟩ := ha
    have hwaits (j : ℕ) (r : PendingAction) (hj : s.resolver = some j)
        (hr : s.call j = .waiting r) : r.fireAt ≤ s.clock := by
      obtain ⟨r', hr', hle, _⟩ := h.waits j hj
      rw [hr] at hr'
      cases hr'
      exact (hle t hmem).trans hdue
    have hran : Aligned { s with armed := s.armed.filter fun t' => t'.handle ≠ t.handle } := by
      refine ⟨h.maps, h.calls, (List.length_filter_le _ _).trans h.armed, ?_⟩
      intro j hj
      obtain ⟨r, hr, hle, _⟩ := h.waits j hj
      exact ⟨r, hr, fun t' ht' => hle t' (List.mem_filter.mp ht').1, fun _ => hwaits j r hj hr⟩
    exact hran.snoc trivial fun _ => hwaits

theorem Aligned.onTime (h : Aligned s) : OnTime s := ⟨fun _ _ hmem => h.calls _ hmem, h.armed⟩

/-- In a run in which Node can hold the delays and no timer is armed for the id while another
one is live or about to resolve the new promise, every promise resolves at its own time or
later, and the id has at most one live timer. A timer that is armed while another one is live
breaks this at once. -/
theorem reschedule_onTime (actionId : JsString) (clock : ℕ) (file : Option PendingAction)
    (s : DelayState) (h : (delayMachine actionId).Reaches Alone (.fresh clock file) s) :
    OnTime s ∧ ∀ i, (s.call i).arms s.clock → s.armed ≠ [] →
      ¬ OnTime ((delayMachine actionId).next s (.resume i)) := by
  have hfresh : Aligned (.fresh clock file) :=
    ⟨rfl, fun c hc => absurd hc List.not_mem_nil, Nat.zero_le _, fun j hj => (by cases hj)⟩
  have hs : Aligned s := h.invariant hfresh fun _ _ hx ha halone => hx.next ha halone
  refine ⟨hs.onTime, ?_⟩
  intro i harms harmed hontime
  have hlen : ((delayMachine actionId).next s (.resume i)).armed.length = s.armed.length+1 := by
    change (s.resume i (s.call i)).armed.length = s.armed.length+1
    cases hc : s.call i with
    | persisted r => rfl
    | read reader r =>
      rw [hc] at harms
      cases reader with
      | load =>
        cases r with
        | none => exact harms.elim
        | some r =>
          obtain ⟨hpending, hlater⟩ := harms
          rw [DelayState.resume, if_pos hpending]
          simp only [DelayState.decide]
          rw [if_neg (by omega)]
          rfl
      | _ => exact harms.elim
    | _ =>
      rw [hc] at harms
      exact harms.elim
  have hone := hontime.2
  rw [hlen] at hone
  exact harmed (List.length_eq_zero_iff.mp (by omega))

/-- A schedule that is restored after a restart, fires, and resolves nothing. -/
def restoredEvents : List DelayEvent := [.schedule 1000 none, .land 0, .resume 0, .restart, .load,
  .land 1, .resume 1, .tick 1000, .timer ⟨1, 1000⟩, .land 2, .resume 2, .land 2, .resume 2]

theorem restoredEvents_permitted :
    (delayMachine sampleId).Permits Alone (.fresh 0 none) restoredEvents := by
  have hmax : (1000 : ℤ) ≤ timeoutMax := by decide
  have hnone {r : PendingAction} {c : DelayCall} (h : c = .persisted r) (hc : ∀ r, c ≠ .persisted r)
      {P : Prop} : P := absurd h (hc r)
  refine ⟨trivial, hmax, trivial, trivial, trivial, ⟨fun _ => rfl, ?_⟩, trivial, trivial, trivial,
    trivial, trivial, trivial, trivial, ⟨fun _ => rfl, ?_⟩, ?_, trivial, ⟨?_, le_rfl⟩, trivial,
    trivial, trivial, trivial, ⟨fun h => h.elim, ?_⟩, trivial, trivial, trivial,
    ⟨fun h => h.elim, ?_⟩, trivial⟩
  · intro r _ c hc hfires
    rw [List.mem_singleton.mp hc] at hfires
    exact hfires.elim
  · exact fun r hr => hnone hr fun r' hr' => (by cases hr')
  · exact Nat.zero_le 1000
  · exact List.mem_singleton.mpr rfl
  · exact fun r hr => hnone hr fun r' hr' => (by cases hr')
  · exact fun r hr => hnone hr fun r' hr' => (by cases hr')

theorem reschedule_onTime_restored :
    OnTime ((delayMachine sampleId).after (.fresh 0 none) restoredEvents) :=
  (reschedule_onTime sampleId 0 none _ restoredEvents_permitted.reaches).1

/-! ### A timer that a restart has left -/

/-- The runs of the daemon: delays that Node can hold, and no cancel. -/
def Reschedules (_ : DelayState) : DelayEvent → Prop
  | .schedule delayMs _ => delayMs ≤ timeoutMax
  | .cancel => False
  | _ => True

/-- After a restart the record is restored, and the migration that is resumed schedules its
id again. -/
def resumedEvents : List DelayEvent := [.schedule 1000 none, .land 0, .resume 0, .restart, .load,
  .land 1, .resume 1, .tick 500, .schedule 1000 none, .land 2, .resume 2, .tick 1000,
  .timer ⟨1, 1000⟩, .land 3, .resume 3, .land 3, .resume 3]

theorem resumedEvents_permitted :
    (delayMachine sampleId).Permits Reschedules (.fresh 0 none) resumedEvents := by
  have hmax : (1000 : ℤ) ≤ timeoutMax := by decide
  refine ⟨trivial, hmax, trivial, trivial, trivial, trivial, trivial, trivial, trivial, trivial,
    trivial, trivial, trivial, trivial, ?_, trivial, trivial, hmax, trivial, trivial, trivial,
    trivial, ?_, trivial, ⟨?_, le_rfl⟩, trivial, trivial, trivial, trivial, trivial, trivial, trivial,
    trivial, trivial, trivial⟩
  · exact Nat.zero_le 500
  · exact Nat.le_add_right 500 500
  · exact List.mem_cons_of_mem _ (List.mem_singleton.mpr rfl)

/-- The timer that was restored resolves the new promise half a second early. -/
theorem reschedule_onTime_fails : ¬ ∀ (actionId : JsString) (clock : ℕ)
    (file : Option PendingAction) (s : DelayState),
      (delayMachine actionId).Reaches Reschedules (.fresh clock file) s → OnTime s := by
  intro h
  have hontime := h sampleId 0 none _ resumedEvents_permitted.reaches
  have hresolved : DelayCall.resolved ⟨sampleId, 500, 1500, 1000, none, .pending⟩ 1000 ∈
      ((delayMachine sampleId).after (.fresh 0 none) resumedEvents).calls :=
    List.mem_cons_of_mem _ (List.mem_cons_of_mem _ (List.mem_cons_self ..))
  have hearly := hontime.1 _ _ hresolved
  exact absurd hearly (by decide)

end Homelab
