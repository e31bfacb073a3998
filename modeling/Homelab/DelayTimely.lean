import Homelab.DelayDecision

/-! No delay is shortened: an action does not fire before its time as long as Node can
hold the delay that it is given, when it is scheduled and when it is restored. -/
namespace Homelab
open Js

/-- No record is fired, and no promise resolved, before its time. -/
def NotEarly (s : DelayState) : Prop :=
  (∀ r, s.file = some r → r.status = .fired → r.fireAt ≤ s.clock) ∧
    ∀ (r : PendingAction) (time : ℕ), .resolved r time ∈ s.calls → r.fireAt ≤ time

/-- The action is not scheduled again. -/
def NoSchedule (_ : DelayState) : DelayEvent → Prop
  | .schedule _ _ => False
  | _ => True

/-! ### Delays that Node can hold -/

/-- What a call knows of the action's time `F`. -/
def TimelyCall (F : ℤ) (now : ℕ) : DelayCall → Prop
  | .persisting r => r.fireAt = F ∧ r.status = .pending ∧ F ≤ now+r.delayMs ∧ r.delayMs ≤ timeoutMax
  | .persisted r => r.fireAt = F ∧ F ≤ now+r.delayMs ∧ r.delayMs ≤ timeoutMax
  | .waiting r => r.fireAt = F
  | .resolved r time => r.fireAt = F ∧ F ≤ time
  | .reading reader => reader = .fire → F ≤ now
  | .read reader r => (reader = .fire → F ≤ now) ∧ ∀ r', r = some r' → r'.fireAt = F
  | .writing reader r => (reader = .fire → F ≤ now) ∧ r.fireAt = F ∧ (r.status = .fired → F ≤ now)
  | .written reader _ => reader = .fire → F ≤ now
  | _ => True

/-- Everything that can fire the action is due at its time `F` or later, and Node can hold
what is left of the delay. -/
structure Timely (F : ℤ) (s : DelayState) : Prop where
  left : F ≤ s.clock+timeoutMax
  file : ∀ r, s.file = some r → r.fireAt = F ∧ (r.status = .fired → F ≤ s.clock)
  armed : ∀ t ∈ s.armed, F ≤ t.due
  calls : ∀ c ∈ s.calls, TimelyCall F s.clock c

variable {actionId : JsString} {s : DelayState} {F : ℤ}

theorem TimelyCall.mono {now time : ℕ} (hle : now ≤ time) {c : DelayCall}
    (h : TimelyCall F now c) : TimelyCall F time c := by
  have hcast : (now : ℤ) ≤ time := Int.ofNat_le.mpr hle
  cases c with
  | persisting r =>
    obtain ⟨hfire, hpending, hdelay, hmax⟩ := h
    exact ⟨hfire, hpending, by omega, hmax⟩
  | persisted r =>
    obtain ⟨hfire, hdelay, hmax⟩ := h
    exact ⟨hfire, by omega, hmax⟩
  | reading reader => exact fun hreader => (h hreader).trans hcast
  | read reader r => exact ⟨fun hreader => (h.1 hreader).trans hcast, h.2⟩
  | writing reader r =>
    exact ⟨fun hreader => (h.1 hreader).trans hcast, h.2.1, fun hfired => (h.2.2 hfired).trans hcast⟩
  | written reader r => exact fun hreader => (h hreader).trans hcast
  | _ => exact h

theorem Timely.setCall (h : Timely F s) (i : ℕ) {c : DelayCall} (hc : TimelyCall F s.clock c) :
    Timely F (s.setCall i c) := ⟨h.left, h.file, h.armed, Automaton.forall_set h.calls i hc⟩

theorem Timely.done (h : Timely F s) (i : ℕ) : Timely F (s.setCall i .done) := h.setCall i trivial

theorem Timely.snoc (h : Timely F s) {c : DelayCall} (hc : TimelyCall F s.clock c) :
    Timely F { s with calls := s.calls ++ [c] } := ⟨h.left, h.file, h.armed, Automaton.forall_snoc h.calls hc⟩

theorem Timely.arm (h : Timely F s) {delay : ℤ} (hdue : F ≤ s.clock+delay)
    (hmax : delay ≤ timeoutMax) : Timely F (s.arm delay) := by
  have hle := le_timerDelay hmax
  refine ⟨h.left, h.file, List.forall_mem_cons.mpr ⟨?_, h.armed⟩, h.calls⟩
  change F ≤ s.clock+timerDelay delay
  omega

theorem Timely.clearTimer (h : Timely F s) : Timely F s.clearTimer :=
  ⟨h.left, h.file, fun t ht => h.armed t (List.mem_filter.mp ht).1, h.calls⟩

theorem Timely.rejectPending (h : Timely F s) : Timely F s.rejectPending := by
  rw [DelayState.rejectPending]
  cases s.rejecter with
  | none => exact h
  | some j =>
    refine ⟨h.left, h.file, h.armed, Automaton.forall_modify h.calls ?_ j⟩
    intro c hc
    cases c with
    | waiting r => trivial
    | _ => exact hc

theorem Timely.resolvePending (h : Timely F s) (hdue : F ≤ s.clock) : Timely F s.resolvePending := by
  rw [DelayState.resolvePending]
  cases s.resolver with
  | none => exact h
  | some j =>
    refine ⟨h.left, h.file, h.armed, Automaton.forall_modify h.calls ?_ j⟩
    intro c hc
    cases c with
    | waiting r => exact ⟨hc, hdue⟩
    | _ => exact hc

theorem Timely.write (h : Timely F s) {r : PendingAction} (hfire : r.fireAt = F)
    (hfired : r.status = .fired → F ≤ s.clock) : Timely F (s.write r) := by
  refine ⟨h.left, ?_, h.armed, h.calls⟩
  intro r' hr'
  obtain rfl := Option.some.inj hr'
  exact ⟨hfire, hfired⟩

theorem Timely.land (h : Timely F s) (i : ℕ) : Timely F (s.land i (s.call i)) := by
  have hcall := DelayState.call_of_forall h.calls trivial i
  cases hc : s.call i with
  | persisting r =>
    rw [hc] at hcall
    obtain ⟨hfire, hpending, hdelay⟩ := hcall
    have hfired : r.status = .fired → F ≤ s.clock := by
      rw [hpending]
      intro hfired
      cases hfired
    exact (h.write hfire hfired).setCall i ⟨hfire, hdelay⟩
  | reading reader =>
    rw [hc] at hcall
    exact h.setCall i ⟨hcall, fun r' hr' => (h.file r' hr').1⟩
  | writing reader r =>
    rw [hc] at hcall
    exact (h.write hcall.2.1 hcall.2.2).setCall i hcall.1
  | _ => exact h

theorem Timely.decide (h : Timely F s) (i : ℕ) {r : PendingAction} {reader : Reader}
    (hreader : reader = .fire → F ≤ s.clock) (hfire : r.fireAt = F) :
    Timely F (s.decide i r reader) := by
  cases reader with
  | cancel => exact h.setCall i ⟨fun h' => (by cases h'), hfire, fun h' => (by cases h')⟩
  | fire => exact h.setCall i ⟨hreader, hfire, fun _ => hreader rfl⟩
  | load =>
    simp only [DelayState.decide]
    split_ifs with hpast
    · exact h.done i
    · have hleft := h.left
      exact (h.arm (by omega) (by omega)).done i

theorem Timely.resume (h : Timely F s) (i : ℕ) : Timely F (s.resume i (s.call i)) := by
  have hcall := DelayState.call_of_forall h.calls trivial i
  cases hc : s.call i with
  | persisted r =>
    rw [hc] at hcall
    obtain ⟨hfire, hdue, hmax⟩ := hcall
    have hmaps : Timely F { s with resolver := some i, rejecter := some i } :=
      ⟨h.left, h.file, h.armed, h.calls⟩
    exact (hmaps.arm hdue hmax).setCall i hfire
  | read reader r =>
    cases r with
    | none => exact h.done i
    | some r =>
      rw [hc] at hcall
      rw [DelayState.resume]
      split_ifs
      · exact h.decide i hcall.1 (hcall.2 r rfl)
      · exact h.done i
  | written reader r =>
    rw [hc] at hcall
    have hdone := h.done i
    cases reader with
    | cancel => exact hdone.clearTimer.rejectPending
    | fire =>
      refine Timely.resolvePending ?_ (hcall rfl)
      exact ⟨hdone.left, hdone.file, hdone.armed, hdone.calls⟩
    | load => exact h
  | _ => exact h

/-- What any event but another schedule keeps. -/
theorem Timely.next (h : Timely F s) {e : DelayEvent} (ha : (delayMachine actionId).allowed s e)
    (hno : NoSchedule s e) : Timely F ((delayMachine actionId).next s e) := by
  cases e with
  | tick time =>
    have hle : s.clock ≤ time := ha
    have hleft := h.left
    refine ⟨?_, ?_, h.armed, fun c hc => (h.calls c hc).mono hle⟩
    · change F ≤ time+timeoutMax
      omega
    · intro r hr
      refine ⟨(h.file r hr).1, fun hfired => ?_⟩
      exact ((h.file r hr).2 hfired).trans (Int.ofNat_le.mpr hle)
  | schedule delayMs dryRunReport => exact absurd hno not_false
  | cancel => exact h.snoc fun h' => (by cases h')
  | load => exact h.snoc fun h' => (by cases h')
  | restart =>
    refine ⟨h.left, h.file, fun t ht => absurd ht List.not_mem_nil, ?_⟩
    intro c hc
    obtain ⟨c', hc', rfl⟩ := List.mem_map.mp hc
    have hold := h.calls c' hc'
    cases c' with
    | resolved r time => exact hold
    | _ => trivial
  | land i => exact h.land i
  | resume i => exact h.resume i
  | fail i =>
    refine h.setCall i ?_
    cases hc : s.call i with
    | resolved r time => trivial
    | _ => trivial
  | timer t =>
    have hdue : F ≤ s.clock := (h.armed t ha.1).trans ha.2
    have harmed : Timely F { s with armed := s.armed.filter fun t' => t'.handle ≠ t.handle } :=
      ⟨h.left, h.file, fun t' ht' => h.armed t' (List.mem_filter.mp ht').1, h.calls⟩
    exact harmed.snoc fun _ => hdue

theorem Timely.notEarly (h : Timely F s) : NotEarly s := by
  constructor
  · intro r hr hfired
    rw [(h.file r hr).1]
    exact (h.file r hr).2 hfired
  · intro r time hmem
    obtain ⟨hfire, hdue⟩ := h.calls _ hmem
    rw [hfire]
    exact hdue

theorem Timely.reaches {t : DelayState} (h : Timely F s)
    (hrun : (delayMachine actionId).Reaches NoSchedule s t) : NotEarly t :=
  (hrun.invariant h fun _ _ hx ha hno => hx.next ha hno).notEarly

/-! ### Delays that Node cannot hold -/

@[simp] theorem DelayState.call_snoc (s : DelayState) (c : DelayCall) :
    DelayState.call { s with calls := s.calls ++ [c] } s.calls.length = c := by
  simp [DelayState.call]

theorem DelayState.call_setCall {i : ℕ} (h : i < s.calls.length) (c : DelayCall) :
    (s.setCall i c).call i = c := by
  simp [DelayState.call, DelayState.setCall, h]

/-- What a call awaits lands. -/
theorem reaches_land {t : DelayState} {i : ℕ} {c : DelayCall}
    (h : (delayMachine actionId).Reaches NoSchedule s t) (hcall : t.call i = c) (ha : c.awaits) :
    (delayMachine actionId).Reaches NoSchedule s (t.land i c) := by
  subst hcall
  exact h.step (e := DelayEvent.land i) ha trivial

/-- A call goes on. -/
theorem reaches_resume {t : DelayState} {i : ℕ} {c : DelayCall}
    (h : (delayMachine actionId).Reaches NoSchedule s t) (hcall : t.call i = c) (hr : c.ready) :
    (delayMachine actionId).Reaches NoSchedule s (t.resume i c) := by
  subst hcall
  exact h.step (e := DelayEvent.resume i) hr trivial

/-- An armed timer fires its pending record at whatever time it is due. -/
theorem fires_when_due {t : Timer} {r : PendingAction} (ht : t ∈ s.armed) (hfile : s.file = some r)
    (hpending : r.status = .pending) {time : ℕ} (hle : s.clock ≤ time) (hdue : t.due ≤ time) :
    ∃ u, (delayMachine actionId).Reaches NoSchedule s u ∧ u.clock = time ∧
      u.file = some { r with status := .fired } := by
  let k := s.calls.length
  have htick : (delayMachine actionId).Reaches NoSchedule s { s with clock := time } :=
    Automaton.Reaches.step (e := DelayEvent.tick time) (.refl s) hle trivial
  have htimer := htick.step (e := DelayEvent.timer t) ⟨ht, hdue⟩ trivial
  obtain ⟨s', hs'⟩ : ∃ s', s' = (delayMachine actionId).next { s with clock := time } (.timer t) :=
    ⟨_, rfl⟩
  rw [← hs'] at htimer
  have hlen : k < s'.calls.length := by
    rw [hs']
    simp [delayMachine, k]
  have hreading : s'.call k = .reading .fire := by
    rw [hs']
    exact DelayState.call_snoc { s with clock := time, armed := _ } _
  have hfile' : s'.file = some r := by
    rw [hs']
    exact hfile
  have hread := reaches_land htimer hreading trivial
  rw [DelayState.land, hfile'] at hread
  have hwriting := reaches_resume hread (DelayState.call_setCall hlen _) trivial
  rw [DelayState.resume, if_pos hpending, DelayState.decide] at hwriting
  have hlen' : k < (s'.setCall k (.read .fire (some r))).calls.length := by
    rw [DelayState.setCall, List.length_set]
    exact hlen
  have hland := reaches_land hwriting (DelayState.call_setCall hlen' _) trivial
  refine ⟨_, hland, ?_, rfl⟩
  rw [hs']
  rfl

/-- A timer that is due before the pending record fires it early. -/
theorem not_notEarly {t : Timer} {r : PendingAction} (ht : t ∈ s.armed) (hfile : s.file = some r)
    (hpending : r.status = .pending) {time : ℕ} (hle : s.clock ≤ time) (hdue : t.due ≤ time)
    (hearly : time < r.fireAt) :
    ¬ ∀ u, (delayMachine actionId).Reaches NoSchedule s u → NotEarly u := by
  intro h
  obtain ⟨u, hrun, hclock, hfired⟩ : ∃ u, (delayMachine actionId).Reaches NoSchedule s u ∧
      u.clock = time ∧ u.file = some { r with status := .fired } :=
    fires_when_due ht hfile hpending hle hdue
  have hcontra := (h u hrun).1 _ hfired rfl
  rw [hclock] at hcontra
  exact absurd hearly (not_lt.mpr hcontra)

variable (actionId)

/-- The action right after `scheduleDelayedAction` was called with the delay. -/
def scheduledAt (now : ℕ) (delayMs : ℤ) (dryRunReport : Option JsString) : DelayState :=
  (delayMachine actionId).next (.fresh now none) (.schedule delayMs dryRunReport)

/-- The action right after `loadPendingActions` was called with the record on disk. -/
def loadedAt (now : ℕ) (r : PendingAction) : DelayState :=
  (delayMachine actionId).next (.fresh now (some r)) .load

theorem timely_scheduledAt {now : ℕ} {delayMs : ℤ} (dryRunReport : Option JsString)
    (h : delayMs ≤ timeoutMax ∨ maxTime < (now+delayMs).natAbs) :
    ∃ F, Timely F (scheduledAt actionId now delayMs dryRunReport) := by
  by_cases hdate : (now+delayMs).natAbs ≤ maxTime
  · have hmax : delayMs ≤ timeoutMax := h.resolve_right (not_lt.mpr hdate)
    refine ⟨now+delayMs, ?_, fun r hr => (by cases hr), fun t ht => absurd ht List.not_mem_nil, ?_⟩
    · exact Int.add_le_add_left hmax now
    · intro c hc
      rw [List.mem_singleton.mp hc, scheduleCall]
      erw [if_pos hdate]
      exact ⟨rfl, rfl, le_rfl, hmax⟩
  · have hzero : (0 : ℤ) ≤ now+timeoutMax := add_nonneg (Int.natCast_nonneg now) (by decide)
    refine ⟨0, hzero, fun r hr => (by cases hr), fun t ht => absurd ht List.not_mem_nil, ?_⟩
    intro c hc
    rw [List.mem_singleton.mp hc, scheduleCall]
    erw [if_neg hdate]
    trivial

theorem timely_loadedAt {now : ℕ} {r : PendingAction} (hpending : r.status = .pending)
    (h : r.fireAt-now ≤ timeoutMax) : Timely r.fireAt (loadedAt actionId now r) := by
  refine ⟨?_, ?_, fun t ht => absurd ht List.not_mem_nil, ?_⟩
  · change r.fireAt ≤ now+timeoutMax
    omega
  · intro r' hr'
    obtain rfl := Option.some.inj hr'
    rw [hpending]
    exact ⟨rfl, fun hfired => (by cases hfired)⟩
  · intro c hc
    rw [List.mem_singleton.mp hc]
    exact fun hreader => (by cases hreader)

theorem scheduledAt_arms {now : ℕ} {delayMs : ℤ} (dryRunReport : Option JsString)
    (hdate : (now+delayMs).natAbs ≤ maxTime) :
    ∃ s, (delayMachine actionId).Reaches NoSchedule (scheduledAt actionId now delayMs dryRunReport) s ∧
      s.clock = now ∧ (⟨0, now+timerDelay delayMs⟩ : Timer) ∈ s.armed ∧
      s.file = some ⟨actionId, now, now+delayMs, delayMs, dryRunReport, .pending⟩ := by
  have hstart : scheduledAt actionId now delayMs dryRunReport =
      { DelayState.fresh now none with calls :=
        [.persisting ⟨actionId, now, now+delayMs, delayMs, dryRunReport, .pending⟩] } := by
    simp [scheduledAt, delayMachine, scheduleCall, DelayState.fresh, hdate]
  have hpermits : (delayMachine actionId).Permits NoSchedule
      (scheduledAt actionId now delayMs dryRunReport) [.land 0, .resume 0] := by
    rw [hstart]
    exact ⟨trivial, trivial, trivial, trivial, trivial⟩
  refine ⟨_, hpermits.reaches, ?_⟩
  rw [hstart]
  exact ⟨rfl, List.mem_cons_self .., rfl⟩

theorem loadedAt_arms {now : ℕ} {r : PendingAction} (hpending : r.status = .pending)
    (hleft : 0 < r.fireAt-now) :
    ∃ s, (delayMachine actionId).Reaches NoSchedule (loadedAt actionId now r) s ∧
      s.clock = now ∧ (⟨0, now+timerDelay (r.fireAt-now)⟩ : Timer) ∈ s.armed ∧ s.file = some r := by
  have hland : (delayMachine actionId).Reaches NoSchedule (loadedAt actionId now r)
      { DelayState.fresh now (some r) with calls := [.read .load (some r)] } :=
    Automaton.Reaches.step (e := DelayEvent.land 0) (.refl _) trivial trivial
  have hresume := hland.step (e := DelayEvent.resume 0) trivial trivial
  have harms : (delayMachine actionId).next { DelayState.fresh now (some r) with
      calls := [.read .load (some r)] } (.resume 0) =
      { DelayState.fresh now (some r) with
        armed := [⟨0, now+timerDelay (r.fireAt-now)⟩], handles := 1, liveTimer := some 0,
        calls := [.done] } := by
    simp [delayMachine, DelayState.fresh, DelayState.call, DelayState.resume, DelayState.decide,
      DelayState.arm, DelayState.setCall, hpending, sub_pos.mp hleft]
  rw [harms] at hresume
  exact ⟨_, hresume, rfl, List.mem_cons_self .., rfl⟩

/-- A delay that Node cannot hold is over after one millisecond. -/
theorem scheduledAt_early {now : ℕ} {delayMs : ℤ} (dryRunReport : Option JsString)
    (hmax : timeoutMax < delayMs) (hdate : (now+delayMs).natAbs ≤ maxTime) :
    ¬ ∀ s, (delayMachine actionId).Reaches NoSchedule
      (scheduledAt actionId now delayMs dryRunReport) s → NotEarly s := by
  intro h
  obtain ⟨s, hrun, hclock, harmed, hfile⟩ := scheduledAt_arms actionId dryRunReport hdate
  have hdue : now+timerDelay delayMs = (now+1 : ℕ) := by
    rw [timerDelay_exceeds hmax, Nat.cast_succ]
  have hearly : ((now+1 : ℕ) : ℤ) < now+delayMs := by
    rw [timeoutMax] at hmax
    omega
  have hle : s.clock ≤ now+1 := hclock.trans_le (Nat.le_succ now)
  exact not_notEarly harmed hfile rfl hle (le_of_eq hdue) hearly fun u hu => h u (hrun.trans hu)

/-- So is the rest of a delay that a restored record still has to wait. -/
theorem loadedAt_early {now : ℕ} {r : PendingAction} (hpending : r.status = .pending)
    (hmax : timeoutMax < r.fireAt-now) :
    ¬ ∀ s, (delayMachine actionId).Reaches NoSchedule (loadedAt actionId now r) s → NotEarly s := by
  intro h
  have hleft : 0 < r.fireAt-now := lt_trans (by decide) hmax
  obtain ⟨s, hrun, hclock, harmed, hfile⟩ := loadedAt_arms actionId hpending hleft
  have hdue : now+timerDelay (r.fireAt-now) = (now+1 : ℕ) := by
    rw [timerDelay_exceeds hmax, Nat.cast_succ]
  have hearly : ((now+1 : ℕ) : ℤ) < r.fireAt := by
    rw [timeoutMax] at hmax
    omega
  have hle : s.clock ≤ now+1 := hclock.trans_le (Nat.le_succ now)
  exact not_notEarly harmed hfile hpending hle (le_of_eq hdue) hearly fun u hu => h u (hrun.trans hu)

/-- No action is fired early, in any run without another schedule, exactly when Node can
hold the delay with which it is scheduled, or what is left of it when it is restored; a
schedule for a time that no `Date` can hold is refused. -/
theorem not_early_iff (now : ℕ) :
    (∀ delayMs dryRunReport, (∀ s, (delayMachine actionId).Reaches NoSchedule
      (scheduledAt actionId now delayMs dryRunReport) s → NotEarly s) ↔
      delayMs ≤ timeoutMax ∨ maxTime < (now+delayMs).natAbs) ∧
    ∀ r : PendingAction, r.status = .pending →
      ((∀ s, (delayMachine actionId).Reaches NoSchedule (loadedAt actionId now r) s → NotEarly s) ↔
        r.fireAt-now ≤ timeoutMax) := by
  constructor
  · intro delayMs dryRunReport
    constructor
    · intro h
      by_contra hlong
      obtain ⟨hmax, hdate⟩ := not_or.mp hlong
      exact scheduledAt_early actionId dryRunReport (not_le.mp hmax) (not_lt.mp hdate) h
    · intro h s hrun
      obtain ⟨F, hstart⟩ := timely_scheduledAt actionId dryRunReport h
      exact hstart.reaches hrun
  · intro r hpending
    constructor
    · intro h
      by_contra hlong
      exact loadedAt_early actionId hpending (not_le.mp hlong) h
    · intro h s hrun
      exact (timely_loadedAt actionId hpending h).reaches hrun

/-- A day's delay, restored after half of it. -/
theorem not_early_half : ∀ s, (delayMachine sampleId).Reaches NoSchedule
    (loadedAt sampleId 43200000 ⟨sampleId, 0, 86400000, 86400000, none, .pending⟩) s → NotEarly s :=
  ((not_early_iff sampleId 43200000).2 ⟨sampleId, 0, 86400000, 86400000, none, .pending⟩ rfl).mpr
    (by decide)

/-- Thirty days are more than Node can hold. -/
theorem not_early_fails : ¬ ∀ (actionId : JsString) (now : ℕ) (seconds : ℤ)
    (dryRunReport : Option JsString), 3600 ≤ seconds →
      ∀ s, (delayMachine actionId).Reaches NoSchedule
        (scheduledAt actionId now (seconds*1000) dryRunReport) s → NotEarly s := by
  intro h
  exact scheduledAt_early sampleId none (by decide) (by decide)
    (h sampleId 0 2592000 none (by decide))

end Homelab
