import Homelab.Automaton
import Homelab.DedupWindow

/-! The timers of the collector, over all interleavings of `start` and `stop` calls: a `start` looks
for timers before it waits for the store, and installs its own after. -/
namespace Homelab
open Js

/-! ### Timers -/

inductive Cadence
  | fast
  | medium
  | slow
  | daily
deriving DecidableEq

/-- `ONE_DAY_MS` -/
def cleanupMs : ℤ := 24*oneHourMs

/-- `CADENCE_MS` -/
def Cadence.ms : Cadence → ℤ
  | .fast => 5*60000
  | .medium => 15*60000
  | .slow => oneHourMs
  | .daily => cleanupMs

/-- What the collector reads of a probe when it starts it -/
structure ScheduledProbe where
  id : JsString
  cadence : Cadence
deriving DecidableEq

/-- What a timer does each time -/
inductive TimerJob
  | runProbe (id : JsString)
  | cleanup
deriving DecidableEq

/-- A timer that is to be installed: what it does, and how often -/
abbrev TimerPlan := TimerJob × ℤ

/-- The timers that one `start` installs -/
def timerPlans (probes : List ScheduledProbe) : List TimerPlan :=
  probes.map (fun probe => (.runProbe probe.id, probe.cadence.ms)) ++ [(.cleanup, cleanupMs)]

/-- A timer of the runtime with its handle -/
structure CollectorTimer where
  handle : ℕ
  plan : TimerPlan
deriving DecidableEq

/-! ### The collector between its calls -/

/-- The handles that the collector has kept, the timers that the runtime has, the `start` calls that
wait for the store, how many have been made, and whether the last call was a `stop`. -/
structure CollectorState where
  timers : List ℕ
  installed : List CollectorTimer
  handles : ℕ
  waiting : List ℕ
  starts : ℕ
  stopped : Bool
deriving DecidableEq

/-- A call is made; or the store has answered a `start` with its list, or with an error. -/
inductive CollectorEvent
  | start
  | stop
  | listed (call : ℕ)
  | failed (call : ℕ)

def CollectorState.fresh : CollectorState := ⟨[], [], 0, [], 0, false⟩

/-- `start` up to its `await` -/
def CollectorState.start (s : CollectorState) : CollectorState :=
  if s.timers.length > 0 then { s with starts := s.starts+1, stopped := false }
  else { s with waiting := s.waiting ++ [s.starts], starts := s.starts+1, stopped := false }

/-- `setInterval`, and the handle is kept. -/
def CollectorState.install (s : CollectorState) (plan : TimerPlan) : CollectorState :=
  { s with
    timers := s.timers ++ [s.handles]
    installed := s.installed ++ [⟨s.handles, plan⟩]
    handles := s.handles+1 }

/-- `start` from its `await` on -/
def CollectorState.listed (probes : List ScheduledProbe) (s : CollectorState) (call : ℕ) : CollectorState :=
  (timerPlans probes).foldl .install { s with waiting := s.waiting.erase call }

def CollectorState.stop (s : CollectorState) : CollectorState :=
  { s with timers := [], installed := s.installed.filter fun t => t.handle ∉ s.timers, stopped := true }

/-- All that can happen to one collector -/
def collectorTimers (probes : List ScheduledProbe) : Automaton CollectorState CollectorEvent where
  allowed s e :=
    match e with
    | .listed call => call ∈ s.waiting
    | .failed call => call ∈ s.waiting
    | _ => True
  next s e :=
    match e with
    | .start => s.start
    | .stop => s.stop
    | .listed call => s.listed probes call
    | .failed call => { s with waiting := s.waiting.erase call }

instance (probes : List ScheduledProbe) (s : CollectorState) :
    ∀ e, Decidable ((collectorTimers probes).allowed s e)
  | .start => isTrue trivial
  | .stop => isTrue trivial
  | .listed call => inferInstanceAs (Decidable (call ∈ s.waiting))
  | .failed call => inferInstanceAs (Decidable (call ∈ s.waiting))

/-! ### The law of the timers -/

/-- No timer is installed or one for each probe and one for the cleanup; and none is when the last
call was a `stop` and no `start` waits any more. -/
structure TimersRight (probes : List ScheduledProbe) (s : CollectorState) : Prop where
  once : s.installed = [] ∨ s.installed.map CollectorTimer.plan = timerPlans probes
  stopped : s.stopped = true → s.waiting = [] → s.installed = []

/-- A `start` goes on only where no timer is installed, and the last one that waits after a `stop`
does not go on, and does not end where timers are installed. -/
def StartsAlone (s : CollectorState) : CollectorEvent → Prop
  | .listed call => s.installed = [] ∧ ¬ (s.stopped = true ∧ s.waiting.erase call = [])
  | .failed call => s.stopped = true → s.waiting.erase call = [] → s.installed = []
  | _ => True

/-- The collector has kept the handles of all timers that are installed. -/
def TimersKept (s : CollectorState) : Prop := s.installed.map CollectorTimer.handle = s.timers

variable {probes : List ScheduledProbe} {s : CollectorState}

theorem install_all (plans : List TimerPlan) (s : CollectorState) :
    (plans.foldl .install s).installed.map CollectorTimer.plan =
      s.installed.map CollectorTimer.plan ++ plans ∧
      (plans.foldl .install s).waiting = s.waiting ∧ (plans.foldl .install s).stopped = s.stopped := by
  induction plans generalizing s with
  | nil => exact ⟨(List.append_nil _).symm, rfl, rfl⟩
  | cons plan plans ih =>
    obtain ⟨hinstalled, hwaiting, hstopped⟩ := ih (s.install plan)
    rw [List.foldl_cons]
    refine ⟨?_, hwaiting, hstopped⟩
    rw [hinstalled, CollectorState.install, List.map_append, List.append_assoc]
    rfl

theorem kept_install (plans : List TimerPlan) (h : TimersKept s) : TimersKept (plans.foldl .install s) := by
  induction plans generalizing s with
  | nil => exact h
  | cons plan plans ih =>
    apply ih
    have hkept : s.installed.map CollectorTimer.handle = s.timers := h
    rw [TimersKept, CollectorState.install, List.map_append, hkept]
    rfl

theorem stop_installed (h : TimersKept s) : s.stop.installed = [] := by
  rw [CollectorState.stop, List.filter_eq_nil_iff]
  intro t ht
  have hmem : t.handle ∈ s.timers := by
    rw [← h]
    exact List.mem_map_of_mem ht
  simpa using hmem

theorem kept_next (h : TimersKept s) (e : CollectorEvent) :
    TimersKept ((collectorTimers probes).next s e) := by
  cases e with
  | start =>
    change TimersKept s.start
    rw [CollectorState.start]
    split_ifs
    · exact h
    · exact h
  | stop =>
    change s.stop.installed.map CollectorTimer.handle = []
    rw [stop_installed h]
    rfl
  | listed call => exact kept_install _ h
  | failed call => exact h

/-- One event keeps the law just in case it meets the condition. -/
theorem timersRight_next (hkept : TimersKept s) (h : TimersRight probes s) (e : CollectorEvent) :
    TimersRight probes ((collectorTimers probes).next s e) ↔ StartsAlone s e := by
  cases e with
  | start =>
    refine iff_of_true ?_ trivial
    change TimersRight probes s.start
    rw [CollectorState.start]
    split_ifs
    · exact ⟨h.once, fun hstopped => absurd hstopped Bool.false_ne_true⟩
    · exact ⟨h.once, fun hstopped => absurd hstopped Bool.false_ne_true⟩
  -- a stop ends every timer that the collector knows, and it knows all
  | stop =>
    have hnone := stop_installed hkept
    exact iff_of_true ⟨.inl hnone, fun _ _ => hnone⟩ trivial
  -- a start that fails installs nothing, but it may have been the last to go on after a stop
  | failed call =>
    constructor
    · intro hnext
      exact hnext.stopped
    · intro hcondition
      exact ⟨h.once, hcondition⟩
  | listed call =>
    obtain ⟨hplans, hwaiting, hstopped⟩ :=
      install_all (timerPlans probes) { s with waiting := s.waiting.erase call }
    have hsome : timerPlans probes ≠ [] := List.append_ne_nil_of_right_ne_nil _ (List.cons_ne_nil _ _)
    have hnext : (s.listed probes call).installed ≠ [] := by
      intro hnil
      rw [CollectorState.listed] at hnil
      rw [hnil, List.map_nil, eq_comm, List.append_eq_nil_iff] at hplans
      exact hsome hplans.2
    constructor
    -- the timers of this start are there, so those of no other may be
    · intro hright
      have honce := hright.once.resolve_left hnext
      constructor
      · have hlength := congrArg List.length (hplans.symm.trans honce)
        rw [List.length_append, List.length_map] at hlength
        apply List.eq_nil_of_length_eq_zero
        change s.installed.length+_ = _ at hlength
        omega
      · rintro ⟨hstop, hnil⟩
        exact hnext (hright.stopped (hstopped.trans hstop) (hwaiting.trans hnil))
    · rintro ⟨hnone, hlast⟩
      constructor
      · right
        refine hplans.trans ?_
        change s.installed.map CollectorTimer.plan ++ _ = _
        rw [hnone]
        rfl
      · intro hstop hnil
        exact absurd ⟨hstopped.symm.trans hstop, hwaiting.symm.trans hnil⟩ hlast

/-- In every interleaving of calls on one collector the timers are right throughout if and only if
each `start` goes on or ends alone. -/
theorem timers_right_iff (probes : List ScheduledProbe) (events : List CollectorEvent)
    (h : (collectorTimers probes).Permits Automaton.anyEvent .fresh events) :
    (collectorTimers probes).Throughout (TimersRight probes) .fresh events ↔
      (collectorTimers probes).Permits StartsAlone .fresh events := by
  have hkept : TimersKept .fresh := rfl
  have hright : TimersRight probes .fresh := ⟨.inl rfl, fun _ _ => rfl⟩
  apply Automaton.throughout_iff hkept hright
  · exact fun s e hs _ => kept_next hs e
  · exact fun s e hs hlaw _ => timersRight_next hs hlaw e
  · exact h

/-- A collector is started, started again, and stopped. -/
theorem timers_right_once :
    (collectorTimers []).Throughout (TimersRight []) .fresh [.start, .listed 0, .start, .stop] := by
  apply (timers_right_iff [] [.start, .listed 0, .start, .stop]
    ⟨trivial, trivial, by decide, trivial, trivial, trivial, trivial, trivial, trivial⟩).mpr
  refine ⟨trivial, trivial, by decide, ⟨rfl, ?_⟩, trivial, trivial, trivial, trivial, trivial⟩
  decide

/-- Two `start` calls are made before the store answers either of them. -/
theorem timers_doubled : ¬ ∀ (probes : List ScheduledProbe) (events : List CollectorEvent),
    (collectorTimers probes).Permits Automaton.anyEvent .fresh events →
      (collectorTimers probes).Throughout (TimersRight probes) .fresh events := by
  intro h
  have hthrough := h [] [.start, .start, .listed 0, .listed 1]
    ⟨trivial, trivial, trivial, trivial, by decide, trivial, by decide, trivial, trivial⟩
  have honce := hthrough.2.2.2.2.once
  revert honce
  decide

end Homelab
