import Homelab.Automaton
import Homelab.BackupVerify
import Homelab.JsDouble

/-! `emitFPRate`: the totals of each probe, in a file that every call loads, changes and saves as a whole, and
the rate that the call emits. -/
namespace Homelab
open Js

/-! ### The counters -/

structure ProbeCounters where
  fpTotal : ℕ
  obsTotal : ℕ
  lastUpdatedIso : JsString
deriving DecidableEq

/-- The own properties of `probes` -/
abbrev FPCounters := List (JsString × ProbeCounters)

/-- What a probe has that is not among the counters -/
def ProbeCounters.fresh : ProbeCounters := ⟨0, 0, js "1970-01-01T00:00:00.000Z"⟩

def ProbeCounters.increment (cur : ProbeCounters) (isFalsePositive : Bool) (now : JsString) :
    ProbeCounters where
  fpTotal := if isFalsePositive then roundDouble (cur.fpTotal+1) else cur.fpTotal
  obsTotal := roundDouble (cur.obsTotal+1)
  lastUpdatedIso := now

def ProbeCounters.ratio (cur : ProbeCounters) : ℚ :=
  if cur.obsTotal = 0 then 0 else nearestDouble (cur.fpTotal/cur.obsTotal)

/-- `counters.probes[probe] = cur`, for a key that is not `__proto__` -/
def FPCounters.set (probe : JsString) (cur : ProbeCounters) : FPCounters → FPCounters
  | [] => [(probe, cur)]
  | (k, c) :: rest => if k = probe then (probe, cur) :: rest else (k, c) :: FPCounters.set probe cur rest

/-! ### Calls -/

/-- How a call ends: it emits its rate, or `NaN`, or it throws. -/
inductive FPOutcome
  | emitted (ratio : ℚ)
  | emittedNaN
  | thrown
deriving DecidableEq

/-- What a call awaits: its load, or the save of what it has made of the counters that it has loaded. There is
nothing that could be saved when a method stands among the counters. -/
inductive FPStage
  | loading
  | saving (loaded : FPCounters) (counters : Option FPCounters) (outcome : FPOutcome)
  | done (outcome : FPOutcome)

def FPStage.isLoading : FPStage → Bool
  | .loading => true
  | _ => false

def FPStage.isSaving : FPStage → Bool
  | .saving .. => true
  | _ => false

def FPStage.isDone : FPStage → Bool
  | .done _ => true
  | _ => false

/-- What a call that saves has loaded -/
def FPStage.loaded : FPStage → Option FPCounters
  | .saving loaded _ _ => some loaded
  | _ => none

structure FPCall where
  probe : JsString
  isFalsePositive : Bool
  stage : FPStage

/-- The file, if there is one, the properties that `Object.prototype` was given, and the calls -/
structure FPProcess where
  file : Option FPCounters
  polluted : List JsString
  calls : List FPCall

inductive FPEvent
  | begin (probe : JsString) (isFalsePositive : Bool)
  | load (i : ℕ) (now : JsString)
  | save (i : ℕ)

namespace FPProcess

/-- `loadCounters`, for a file that is signed -/
def load (s : FPProcess) : FPCounters := s.file.getD []

/-- The stage after the load, and the properties of `Object.prototype` -/
def increment (s : FPProcess) (c : FPCall) (now : JsString) : FPStage × List JsString :=
  let incremented (cur : ProbeCounters) : FPStage :=
    let cur := cur.increment c.isFalsePositive now
    .saving s.load (some (s.load.set c.probe cur)) (.emitted cur.ratio)
  match s.load.lookup c.probe with
  | some cur => (incremented cur, s.polluted)
  | none =>
    if c.probe = js "__proto__" then
      -- the prototype is incremented, and then assigned as a prototype, so nothing is added to the counters
      (.saving s.load (some s.load) .emittedNaN,
        s.polluted ++ [js "obs_total", js "last_updated_iso"] ++
          if c.isFalsePositive then [js "fp_total"] else [])
    else if c.probe ∈ inheritedMethods then (.saving s.load none .emittedNaN, s.polluted)
    -- a number or a text cannot be given properties
    else if c.probe ∈ s.polluted then (.done .thrown, s.polluted)
    else (incremented .fresh, s.polluted)

def next (s : FPProcess) : FPEvent → FPProcess
  | .begin probe isFalsePositive => { s with calls := s.calls ++ [⟨probe, isFalsePositive, .loading⟩] }
  | .load i now =>
    match s.calls[i]? with
    | some c =>
      let (stage, polluted) := s.increment c now
      { s with polluted := polluted, calls := s.calls.set i { c with stage := stage } }
    | none => s
  | .save i =>
    match s.calls[i]? with
    | some ⟨probe, isFalsePositive, .saving _ counters outcome⟩ =>
      -- a save that throws is logged
      { s with
        file := counters.orElse fun _ => s.file
        calls := s.calls.set i ⟨probe, isFalsePositive, .done outcome⟩ }
    | _ => s

def Awaits (s : FPProcess) : FPEvent → Prop
  | .begin .. => True
  | .load i _ => ∃ c ∈ s.calls[i]?, c.stage.isLoading = true
  | .save i => ∃ c ∈ s.calls[i]?, c.stage.isSaving = true

end FPProcess

/-- Calls of `emitFPRate` in one process, whose file operations succeed -/
def fpRates : Automaton FPProcess FPEvent where
  allowed := FPProcess.Awaits
  next := FPProcess.next

/-- No file, and no calls yet -/
def FPProcess.fresh : FPProcess := ⟨none, [], []⟩

/-! ### What the calls are to do -/

/-- Whether the call for the probe has returned -/
def FPCall.returnedFor (probe : JsString) (c : FPCall) : Bool :=
  c.probe = probe && c.stage.isDone

namespace FPProcess

def totals (s : FPProcess) (probe : JsString) : ProbeCounters := (s.load.lookup probe).getD .fresh

/-- As many observations and false positives are in the file as there were calls that have returned, and the
emitted rates lie between 0 and 1. -/
structure Exact (s : FPProcess) : Prop where
  obs : ∀ probe, (s.totals probe).obsTotal = s.calls.countP fun c => c.returnedFor probe
  fp : ∀ probe, (s.totals probe).fpTotal = s.calls.countP fun c => c.returnedFor probe && c.isFalsePositive
  rates : ∀ c ∈ s.calls, ∀ outcome, c.stage = .done outcome →
    ∃ ratio, outcome = .emitted ratio ∧ 0 ≤ ratio ∧ ratio ≤ 1

/-- No object inherits a property with the name of the probe. A call finds the file as it has loaded it when it
saves, and the total in it is one up to which doubles are exact. -/
def InTurn (s : FPProcess) : FPEvent → Prop
  | .begin probe _ => probe ∉ js "__proto__" :: inheritedMethods
  | .load .. => True
  | .save i => ∀ c ∈ s.calls[i]?, ∀ loaded ∈ c.stage.loaded,
    s.load = loaded ∧ (s.totals c.probe).obsTotal < 2^53

end FPProcess

/-! ### The totals -/

variable {s : FPProcess} {c c' : FPCall} {i : ℕ} {probe : JsString} {now : JsString} {cur : ProbeCounters}

theorem lookup_set (probe k : JsString) (cur : ProbeCounters) (counters : FPCounters) :
    (counters.set probe cur).lookup k = if k = probe then some cur else counters.lookup k := by
  induction counters with
  | nil =>
    rw [FPCounters.set, List.lookup_cons, List.lookup_nil]
    split_ifs with h
    · rw [beq_iff_eq.mpr h]
    · rw [beq_false_of_ne h]
  | cons f counters ih =>
    obtain ⟨l, d⟩ := f
    rw [FPCounters.set]
    split_ifs with hl hk hk
    · rw [List.lookup_cons, beq_iff_eq.mpr hk]
    · rw [List.lookup_cons, beq_false_of_ne hk, List.lookup_cons, beq_false_of_ne (hl ▸ hk)]
    · have hne : k ≠ l := fun heq => hl (heq.symm.trans hk)
      rw [List.lookup_cons, beq_false_of_ne hne, ih, if_pos hk]
    · rw [List.lookup_cons, List.lookup_cons, ih, if_neg hk]

theorem increment_exact (cur : ProbeCounters) (isFalsePositive : Bool) (now : JsString)
    (hle : cur.fpTotal ≤ cur.obsTotal) (hlt : cur.obsTotal < 2^53) :
    (cur.increment isFalsePositive now).obsTotal = cur.obsTotal+1 ∧
      (cur.increment isFalsePositive now).fpTotal = cur.fpTotal + if isFalsePositive then 1 else 0 := by
  -- below `2^53` every count is a double
  have hobs : roundDouble (cur.obsTotal+1) = cur.obsTotal+1 := roundDouble_of_le hlt
  have hfp : roundDouble (cur.fpTotal+1) = cur.fpTotal+1 := roundDouble_of_le (by omega)
  refine ⟨hobs, ?_⟩
  cases isFalsePositive with
  | true => exact hfp
  | false => rfl

theorem ratio_mem (h : cur.fpTotal ≤ cur.obsTotal) : 0 ≤ cur.ratio ∧ cur.ratio ≤ 1 := by
  rw [ProbeCounters.ratio]
  split_ifs with hzero
  · exact ⟨le_rfl, zero_le_one⟩
  · have hpos : (0 : ℚ) < cur.obsTotal := by exact_mod_cast Nat.pos_of_ne_zero hzero
    have hle : (cur.fpTotal : ℚ)/cur.obsTotal ≤ 1 := by
      rw [div_le_one hpos]
      exact_mod_cast h
    exact nearestDouble_mem (div_nonneg (Nat.cast_nonneg _) hpos.le) hle

theorem countP_set_new {p : FPCall → Bool} {calls : List FPCall} (h : calls[i]? = some c) (hc : p c = false) :
    (calls.set i c').countP p = calls.countP p + if p c' then 1 else 0 := by
  obtain ⟨hi, rfl⟩ := List.getElem?_eq_some_iff.mp h
  rw [List.countP_set hi, hc]
  rfl

/-! ### Steps -/

/-- What is kept of a call: when it saves, it has made of the totals that it has loaded what it is to make of
them. -/
structure FPCall.Kept (c : FPCall) : Prop where
  plain : c.probe ∉ js "__proto__" :: inheritedMethods
  saves : ∀ loaded counters outcome, c.stage = .saving loaded counters outcome →
    ∃ now, ∃ cur, cur = ((loaded.lookup c.probe).getD .fresh).increment c.isFalsePositive now ∧
      counters = some (loaded.set c.probe cur) ∧ outcome = .emitted cur.ratio

namespace FPProcess

structure Kept (s : FPProcess) : Prop where
  exact : s.Exact
  unpolluted : s.polluted = []
  calls : ∀ c ∈ s.calls, c.Kept

theorem Exact.fp_le (h : s.Exact) (probe : JsString) :
    (s.totals probe).fpTotal ≤ (s.totals probe).obsTotal := by
  rw [h.fp, h.obs]
  apply List.countP_mono_left
  intro c _ hc
  exact (Bool.and_eq_true_iff.mp hc).1

/-- A probe of a plain name is incremented, as it has been loaded. -/
theorem increment_plain (hplain : c.probe ∉ js "__proto__" :: inheritedMethods) (hpolluted : s.polluted = [])
    (now : JsString) : ∃ cur, cur = (s.totals c.probe).increment c.isFalsePositive now ∧
      s.increment c now = (.saving s.load (some (s.load.set c.probe cur)) (.emitted cur.ratio), []) := by
  refine ⟨_, rfl, ?_⟩
  obtain ⟨hproto, hmethod⟩ := not_or.mp (List.mem_cons.not.mp hplain)
  rw [increment, totals]
  -- a probe that is not among the counters starts at zero: its name is none that objects inherit
  cases s.load.lookup c.probe with
  | some cur =>
    rw [hpolluted]
    rfl
  | none =>
    dsimp only
    rw [hpolluted, if_neg hproto, if_neg hmethod, if_neg List.not_mem_nil]
    rfl

theorem kept_begin (hs : s.Kept) (isFalsePositive : Bool)
    (hplain : probe ∉ js "__proto__" :: inheritedMethods) :
    (s.next (.begin probe isFalsePositive)).Kept where
  exact := by
    have hnew (k : JsString) : FPCall.returnedFor k ⟨probe, isFalsePositive, .loading⟩ = false :=
      Bool.and_false _
    refine ⟨fun k => ?_, fun k => ?_, ?_⟩
    · rw [next, List.countP_append, List.countP_singleton, hnew]
      exact hs.exact.obs k
    · rw [next, List.countP_append, List.countP_singleton, hnew]
      exact hs.exact.fp k
    · apply Automaton.forall_snoc hs.exact.rates
      intro outcome houtcome
      cases houtcome
  unpolluted := hs.unpolluted
  calls := by
    apply Automaton.forall_snoc hs.calls
    refine ⟨hplain, fun loaded counters outcome hstage => ?_⟩
    cases hstage

theorem kept_load (hs : s.Kept) (hc : s.calls[i]? = some c) (hloading : c.stage.isLoading = true)
    (now : JsString) : (s.next (.load i now)).Kept := by
  have hkept := hs.calls c (List.mem_of_getElem? hc)
  obtain ⟨cur, hcur, hincrement⟩ := increment_plain hkept.plain hs.unpolluted now
  have hnext : s.next (.load i now) = { s with
      polluted := []
      calls := s.calls.set i { c with
        stage := .saving s.load (some (s.load.set c.probe cur)) (.emitted cur.ratio) } } := by
    rw [next, hc]
    dsimp only
    rw [hincrement]
  -- a call that has not returned stays one
  have hbefore (k : JsString) : c.returnedFor k = false := by
    have hstage : c.stage.isDone = false := by
      cases hstage : c.stage with
      | loading => rfl
      | saving loaded counters outcome => rfl
      | done outcome =>
        rw [hstage] at hloading
        cases hloading
    rw [FPCall.returnedFor, hstage, Bool.and_false]
  have hafter (k : JsString) : FPCall.returnedFor k { c with
      stage := .saving s.load (some (s.load.set c.probe cur)) (.emitted cur.ratio) } = false :=
        Bool.and_false _
  rw [hnext]
  refine ⟨⟨fun k => ?_, fun k => ?_, ?_⟩, rfl, ?_⟩
  · rw [countP_set_new hc (hbefore k), hafter]
    exact hs.exact.obs k
  · rw [countP_set_new hc (by rw [hbefore, Bool.false_and]), hafter]
    exact hs.exact.fp k
  · apply Automaton.forall_set hs.exact.rates
    intro outcome houtcome
    cases houtcome
  · apply Automaton.forall_set hs.calls
    refine ⟨hkept.plain, fun loaded counters outcome hstage => ?_⟩
    obtain ⟨rfl, rfl, rfl⟩ := FPStage.saving.inj hstage
    exact ⟨now, cur, hcur, rfl, rfl⟩

theorem kept_save (hs : s.Kept) (hc : s.calls[i]? = some c) (hsaving : c.stage.isSaving = true)
    (hturn : s.InTurn (.save i)) : (s.next (.save i)).Kept := by
  obtain ⟨probe, isFalsePositive, stage⟩ := c
  cases stage with
  | loading => cases hsaving
  | done outcome => cases hsaving
  | saving loaded counters outcome =>
    have hkept := hs.calls _ (List.mem_of_getElem? hc)
    obtain ⟨now, cur, hcur, hcounters, houtcome⟩ := hkept.saves _ _ _ rfl
    -- the file is the one that has been loaded, so no other save is overwritten
    obtain ⟨hload, hlt⟩ := hturn _ hc _ rfl
    dsimp only at hcur hcounters houtcome hlt
    subst hload hcounters houtcome
    have hle := hs.exact.fp_le probe
    obtain ⟨hobs, hfp⟩ := increment_exact (s.totals probe) isFalsePositive now hle hlt
    have hcur' : cur = (s.totals probe).increment isFalsePositive now := hcur
    rw [← hcur'] at hobs hfp
    have hnext : s.next (.save i) = { s with
        file := some (s.load.set probe cur)
        calls := s.calls.set i ⟨probe, isFalsePositive, .done (.emitted cur.ratio)⟩ } := by
      rw [next, hc]
      rfl
    have htotals (k : JsString) : (s.next (.save i)).totals k = if k = probe then cur else s.totals k := by
      rw [hnext, totals]
      change ((s.load.set probe cur).lookup k).getD .fresh = _
      rw [lookup_set]
      split_ifs <;> rfl
    -- the call is counted for its own probe only
    have hbefore (k : JsString) : FPCall.returnedFor k ⟨probe, isFalsePositive,
        .saving s.load (some (s.load.set probe cur)) (.emitted cur.ratio)⟩ = false := Bool.and_false _
    have hafter (k : JsString) :
        FPCall.returnedFor k ⟨probe, isFalsePositive, .done (.emitted cur.ratio)⟩ = decide (probe = k) :=
      Bool.and_true _
    refine ⟨⟨fun k => ?_, fun k => ?_, ?_⟩, ?_, ?_⟩
    · have hold := hs.exact.obs k
      rw [htotals, hnext, countP_set_new hc (hbefore k), hafter, ← hold]
      by_cases hk : k = probe
      · rw [if_pos hk, if_pos (decide_eq_true hk.symm), hobs, hk]
      · rw [if_neg hk, if_neg fun h => hk (of_decide_eq_true h).symm]
        rfl
    · have hold := hs.exact.fp k
      rw [htotals, hnext, countP_set_new hc (by rw [hbefore, Bool.false_and]), hafter, ← hold]
      by_cases hk : k = probe
      · rw [if_pos hk, decide_eq_true hk.symm, Bool.true_and, hfp, hk]
      · rw [if_neg hk, decide_eq_false (Ne.symm hk), Bool.false_and]
        rfl
    · rw [hnext]
      apply Automaton.forall_set hs.exact.rates
      intro outcome houtcome
      obtain rfl := FPStage.done.inj houtcome
      -- one more of each keeps the false positives below the observations
      have hratio : 0 ≤ cur.ratio ∧ cur.ratio ≤ 1 := by
        apply ratio_mem
        rw [hobs, hfp]
        split_ifs <;> omega
      exact ⟨cur.ratio, rfl, hratio⟩
    · rw [hnext]
      exact hs.unpolluted
    · rw [hnext]
      apply Automaton.forall_set hs.calls
      refine ⟨hkept.plain, fun loaded counters outcome hstage => ?_⟩
      cases hstage

theorem kept_next (hs : s.Kept) (e : FPEvent) (hallowed : fpRates.allowed s e) (hturn : s.InTurn e) :
    (fpRates.next s e).Kept := by
  cases e with
  | begin probe isFalsePositive => exact kept_begin hs isFalsePositive hturn
  | load i now =>
    obtain ⟨c, hc, hloading⟩ := hallowed
    exact kept_load hs hc hloading now
  | save i =>
    obtain ⟨c, hc, hsaving⟩ := hallowed
    exact kept_save hs hc hsaving hturn

theorem kept_fresh : FPProcess.fresh.Kept where
  exact := ⟨fun _ => rfl, fun _ => rfl, fun _ hc => absurd hc List.not_mem_nil⟩
  unpolluted := rfl
  calls _ hc := absurd hc List.not_mem_nil

end FPProcess

/-- Once all calls have returned, the file counts all of them. -/
theorem FPProcess.Exact.ended (h : s.Exact) (hdone : ∀ c ∈ s.calls, c.stage.isDone = true)
    (probe : JsString) :
    (s.totals probe).obsTotal = s.calls.countP (fun c => c.probe = probe) ∧
      (s.totals probe).fpTotal = s.calls.countP fun c => c.probe = probe && c.isFalsePositive := by
  have hreturned (c : FPCall) (hc : c ∈ s.calls) : c.returnedFor probe = decide (c.probe = probe) := by
    rw [FPCall.returnedFor, hdone c hc, Bool.and_true]
  constructor
  · rw [h.obs]
    apply List.countP_congr
    intro c hc
    rw [hreturned c hc]
  · rw [h.fp]
    apply List.countP_congr
    intro c hc
    rw [hreturned c hc]

/-- When every call saves into the file that it has loaded, the file counts the calls that have returned, and all
calls once they all have. -/
theorem countsFalsePositives (events : List FPEvent) (h : fpRates.Permits FPProcess.InTurn .fresh events) :
    fpRates.Throughout FPProcess.Exact .fresh events ∧
      let s := fpRates.after .fresh events
      (∀ c ∈ s.calls, c.stage.isDone = true) → ∀ probe,
        (s.totals probe).obsTotal = s.calls.countP (fun c => c.probe = probe) ∧
          (s.totals probe).fpTotal = s.calls.countP fun c => c.probe = probe && c.isFalsePositive := by
  have hkept := h.throughout FPProcess.kept_fresh fun _ e hs hallowed hturn =>
    FPProcess.kept_next hs e hallowed hturn
  have hexact := hkept.mono fun _ hs => hs.exact
  exact ⟨hexact, hexact.finish.ended⟩

instance (s : FPProcess) (e : FPEvent) : Decidable (fpRates.allowed s e) :=
  match e with
  | .begin .. => isTrue trivial
  | .load i _ => inferInstanceAs (Decidable (∃ c ∈ s.calls[i]?, c.stage.isLoading = true))
  | .save i => inferInstanceAs (Decidable (∃ c ∈ s.calls[i]?, c.stage.isSaving = true))

instance (s : FPProcess) (e : FPEvent) : Decidable (s.InTurn e) :=
  match e with
  | .begin probe _ => inferInstanceAs (Decidable (probe ∉ js "__proto__" :: inheritedMethods))
  | .load .. => isTrue trivial
  | .save i => inferInstanceAs (Decidable (∀ c ∈ s.calls[i]?, ∀ loaded ∈ c.stage.loaded,
      s.load = loaded ∧ (s.totals c.probe).obsTotal < 2^53))

/-- Two calls for one probe, one after the other -/
def callsInTurn : List FPEvent :=
  [.begin (js "crash_loop") true, .load 0 (js "2026-01-01T00:00:00.000Z"), .save 0,
    .begin (js "crash_loop") false, .load 1 (js "2026-01-01T00:00:01.000Z"), .save 1]

theorem countsFalsePositives_inTurn : fpRates.Throughout FPProcess.Exact .fresh callsInTurn :=
  (countsFalsePositives callsInTurn (by decide)).1

/-- Two calls for one probe, each of which loads the counters before one of them saves -/
def callsAtOnce : List FPEvent :=
  [.begin (js "crash_loop") true, .begin (js "crash_loop") true, .load 0 (js "2026-01-01T00:00:00.000Z"),
    .load 1 (js "2026-01-01T00:00:00.000Z"), .save 0, .save 1]

/-- Both calls return, and the file counts one observation. -/
theorem update_lost : ¬ ∀ events : List FPEvent, fpRates.Permits Automaton.anyEvent .fresh events →
    fpRates.Throughout FPProcess.Exact .fresh events := by
  intro h
  have hthrough := h callsAtOnce (by decide)
  have hobs := hthrough.finish.obs (js "crash_loop")
  revert hobs
  decide

end Homelab
