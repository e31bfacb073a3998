import Homelab.Collector

/-! `runAll` of the collector, with the calls that it makes of its store, its audit log and its promoter.
Each of them may fail. -/
namespace Homelab
open Js Throttle

/-- An observation of a scan, and whether its promotion fails too -/
structure Trial extends Scanned where
  promotes : Bool

inductive CallKind
  | auditSuppressed
  | save
  | auditCreated
  | promote
deriving DecidableEq

/-- A call about an observation, and whether it has succeeded -/
structure CollectorCall where
  kind : CallKind
  obs : Observation
  ok : Bool

/-- What a run returns, unless it rejects; its calls in order; and the cache. -/
structure CollectorRun where
  returned : Option (List Observation)
  calls : List CollectorCall
  cache : DedupCache

def CollectorRun.prepend (run : CollectorRun) (calls : List CollectorCall) (fresh : List Observation) :
    CollectorRun where
  returned := run.returned.map (fresh ++ ·)
  calls := calls ++ run.calls
  cache := run.cache

/-- `runProbe`, from what the scan has returned on -/
def runTrials (dryRun : Bool) : List Trial → DedupCache → CollectorRun
  | [], cache => ⟨some [], [], cache⟩
  | t :: trials, cache =>
    let (duplicate, cache) := cache.check t.obs.key t.now
    if duplicate then
      -- the audit entry about a duplicate is not in a `try`
      if t.audits then (runTrials dryRun trials cache).prepend [⟨.auditSuppressed, t.obs, true⟩] []
      else ⟨none, [⟨.auditSuppressed, t.obs, false⟩], cache⟩
    else if dryRun then (runTrials dryRun trials cache).prepend [] [t.obs]
    else if t.saves then
      if t.audits then
        (runTrials dryRun trials cache).prepend [⟨.save, t.obs, true⟩, ⟨.auditCreated, t.obs, true⟩,
          ⟨.promote, t.obs, t.promotes⟩] [t.obs]
      else (runTrials dryRun trials cache).prepend [⟨.save, t.obs, true⟩, ⟨.auditCreated, t.obs, false⟩] []
    else (runTrials dryRun trials cache).prepend [⟨.save, t.obs, false⟩] []

/-- A probe of a platform, and what its scan finds; one that throws finds nothing. -/
structure ProbeScan where
  platformId : JsString
  scan : Option (List Trial)

def ProbeScan.trials (probe : ProbeScan) : List Trial := probe.scan.getD []

/-- The loop of `runAll`: a run that rejects ends it. -/
def runProbes (dryRun : Bool) : List ProbeScan → DedupCache → CollectorRun
  | [], cache => ⟨some [], [], cache⟩
  | probe :: probes, cache =>
    let run := runTrials dryRun probe.trials cache
    match run.returned with
    | none => run
    | some fresh => (runProbes dryRun probes run.cache).prepend run.calls fresh

def probesFor (filter : Option JsString) (probes : List ProbeScan) : List ProbeScan :=
  match filter with
  | none => probes
  | some platformId => probes.filter fun probe => probe.platformId = platformId

def runAll (filter : Option JsString) (dryRun : Bool) (probes : List ProbeScan) (cache : DedupCache) :
    CollectorRun := runProbes dryRun (probesFor filter probes) cache

/-- All that the scans find, in the order in which it is looked at -/
def trialsOf (filter : Option JsString) (probes : List ProbeScan) : List Trial :=
  (probesFor filter probes).flatMap ProbeScan.trials

variable {dryRun : Bool} {trials xs ys : List Trial} {cache : DedupCache} {probes : List ProbeScan}

/-! ### One run over all that is found -/

/-- What the run of one probe returns is what the shorter account of it says. -/
theorem runTrials_collect (dryRun : Bool) (trials : List Trial) (cache : DedupCache) :
    (runTrials dryRun trials cache).returned = (collect dryRun (trials.map Trial.toScanned) cache).returned ∧
      (runTrials dryRun trials cache).cache = (collect dryRun (trials.map Trial.toScanned) cache).cache := by
  induction trials generalizing cache with
  | nil => exact ⟨rfl, rfl⟩
  | cons t trials ih =>
    obtain ⟨hreturned, hcache⟩ := ih (cache.check t.obs.key t.now).2
    have hmap (fresh : List Observation) := congrArg (Option.map (fresh ++ ·)) hreturned
    rw [runTrials, List.map_cons, collect]
    dsimp only
    split_ifs
    · exact ⟨hmap [], hcache⟩
    · exact ⟨rfl, rfl⟩
    · exact ⟨hmap [t.obs], hcache⟩
    · exact ⟨hmap [t.obs], hcache⟩
    · exact ⟨hmap [], hcache⟩
    · exact ⟨hmap [], hcache⟩

theorem prepend_prepend (run : CollectorRun) (calls calls' : List CollectorCall)
    (fresh fresh' : List Observation) : (run.prepend calls' fresh').prepend calls fresh =
      run.prepend (calls ++ calls') (fresh ++ fresh') := by
  simp [CollectorRun.prepend, Function.comp_def]

theorem prepend_nil (run : CollectorRun) : run.prepend [] [] = run := by
  simp [CollectorRun.prepend]

/-- The run goes on with the rest, unless it has rejected. -/
def CollectorRun.then (run : CollectorRun) (rest : DedupCache → CollectorRun) : CollectorRun :=
  match run.returned with
  | none => run
  | some fresh => (rest run.cache).prepend run.calls fresh

theorem prepend_then (run : CollectorRun) (calls : List CollectorCall) (fresh : List Observation)
    (rest : DedupCache → CollectorRun) :
    (run.prepend calls fresh).then rest = (run.then rest).prepend calls fresh := by
  have hreturned : (run.prepend calls fresh).returned = run.returned.map (fresh ++ ·) := rfl
  rw [CollectorRun.then, CollectorRun.then, hreturned]
  cases run.returned with
  | none => rfl
  | some found => exact (prepend_prepend _ _ _ _ _).symm

theorem runTrials_append (xs ys : List Trial) (cache : DedupCache) :
    runTrials dryRun (xs ++ ys) cache = (runTrials dryRun xs cache).then (runTrials dryRun ys) := by
  induction xs generalizing cache with
  | nil => exact (prepend_nil _).symm
  | cons t xs ih =>
    rw [List.cons_append, runTrials, runTrials]
    dsimp only
    split_ifs
    · rw [prepend_then, ih]
    · rfl
    · rw [prepend_then, ih]
    · rw [prepend_then, ih]
    · rw [prepend_then, ih]
    · rw [prepend_then, ih]

/-- The probes run as one that finds what they find, one after the other. -/
theorem runProbes_eq (dryRun : Bool) (probes : List ProbeScan) (cache : DedupCache) :
    runProbes dryRun probes cache = runTrials dryRun (probes.flatMap ProbeScan.trials) cache := by
  induction probes generalizing cache with
  | nil => rfl
  | cons probe probes ih =>
    rw [runProbes, List.flatMap_cons, runTrials_append, CollectorRun.then]
    cases (runTrials dryRun probe.trials cache).returned with
    | none => rfl
    | some fresh =>
      dsimp only
      rw [ih]

/-! ### What is a duplicate -/

/-- Each of the observations, with whether the cache suppresses it -/
def judge : List Trial → DedupCache → List (Bool × Trial)
  | [], _ => []
  | t :: trials, cache =>
    ((cache.check t.obs.key t.now).1, t) :: judge trials (cache.check t.obs.key t.now).2

/-- It is no duplicate, and its save and the audit entry about it have succeeded. -/
def isPersisted (judged : Bool × Trial) : Bool := !judged.1 && judged.2.saves && judged.2.audits

/-- The observations that are persisted, in scan order -/
def persistedOf (trials : List Trial) (cache : DedupCache) : List Observation :=
  ((judge trials cache).filter isPersisted).map fun judged => judged.2.obs

/-- The calls about an observation: it is saved, audited and promoted in this order, up to the first of
the first two that fails. -/
def callsOf (judged : Bool × Trial) : List CollectorCall :=
  if judged.1 then [⟨.auditSuppressed, judged.2.obs, judged.2.audits⟩]
  else if !judged.2.saves then [⟨.save, judged.2.obs, false⟩]
  else if !judged.2.audits then [⟨.save, judged.2.obs, true⟩, ⟨.auditCreated, judged.2.obs, false⟩]
  else [⟨.save, judged.2.obs, true⟩, ⟨.auditCreated, judged.2.obs, true⟩,
    ⟨.promote, judged.2.obs, judged.2.promotes⟩]

/-- The audit entries about duplicates succeed. -/
def SuppressionsAudited (trials : List Trial) (cache : DedupCache) : Prop :=
  ∀ judged ∈ judge trials cache, judged.1 = true → judged.2.audits = true

/-- What is a duplicate depends on the observations and their times, and on nothing that fails. -/
theorem judge_congr (h : xs.map (fun t => (t.obs, t.now)) = ys.map fun t => (t.obs, t.now))
    (cache : DedupCache) : (judge xs cache).map Prod.fst = (judge ys cache).map Prod.fst := by
  induction xs generalizing ys cache with
  | nil =>
    rw [List.map_eq_nil_iff.mp h.symm]
  | cons x xs ih =>
    cases ys with
    | nil => cases h
    | cons y ys =>
      obtain ⟨hhead, htail⟩ := List.cons.inj h
      obtain ⟨hobs, hnow⟩ := Prod.mk.inj hhead
      rw [judge, judge, List.map_cons, List.map_cons, hobs, hnow, ih htail]

/-! ### What a run comes to -/

theorem runTrials_rejects (h : ¬ SuppressionsAudited trials cache) :
    (runTrials dryRun trials cache).returned = none := by
  induction trials generalizing cache with
  | nil => exact absurd (fun judged hj => absurd hj List.not_mem_nil) h
  | cons t trials ih =>
    by_cases hrest : SuppressionsAudited trials (cache.check t.obs.key t.now).2
    · -- what comes later is audited, so this is the entry that fails
      have hfails : (cache.check t.obs.key t.now).1 = true ∧ t.audits = false := by
        by_contra hnot
        apply h
        intro judged hmem hduplicate
        rcases List.mem_cons.mp hmem with rfl | hmem
        · by_contra haudits
          exact hnot ⟨hduplicate, Bool.eq_false_iff.mpr haudits⟩
        · exact hrest judged hmem hduplicate
      rw [runTrials]
      dsimp only
      rw [if_pos hfails.1, hfails.2]
      rfl
    · have hnone := ih hrest
      rw [runTrials]
      dsimp only
      split_ifs
      all_goals first | rfl | exact congrArg (Option.map _) hnone

theorem runTrials_returns (h : SuppressionsAudited trials cache) :
    (runTrials false trials cache).returned = some (persistedOf trials cache) ∧
      (runTrials false trials cache).calls = (judge trials cache).flatMap callsOf := by
  induction trials generalizing cache with
  | nil => exact ⟨rfl, rfl⟩
  | cons t trials ih =>
    obtain ⟨hhead, htail⟩ := List.forall_mem_cons.mp h
    obtain ⟨hreturned, hcalls⟩ := ih htail
    rw [persistedOf] at hreturned
    rw [runTrials, persistedOf, judge, List.flatMap_cons, List.filter_cons]
    dsimp only [CollectorRun.prepend] at hreturned hcalls ⊢
    cases hduplicate : (cache.check t.obs.key t.now).1 with
    | true =>
      have haudits : t.audits = true := hhead hduplicate
      simp [callsOf, isPersisted, haudits, hreturned, hcalls]
    | false =>
      cases hsaves : t.saves with
      | false => simp [callsOf, isPersisted, hsaves, hreturned, hcalls]
      | true =>
        cases haudits : t.audits with
        | false => simp [callsOf, isPersisted, hsaves, haudits, hreturned, hcalls]
        | true => simp [callsOf, isPersisted, hsaves, haudits, hreturned, hcalls]

theorem runTrials_dry (trials : List Trial) (cache : DedupCache) :
    ∀ call ∈ (runTrials true trials cache).calls, call.kind = .auditSuppressed := by
  induction trials generalizing cache with
  | nil => exact fun call hcall => absurd hcall List.not_mem_nil
  | cons t trials ih =>
    have hrest := ih (cache.check t.obs.key t.now).2
    rw [runTrials]
    dsimp only
    rw [if_pos rfl]
    split_ifs
    · exact List.forall_mem_cons.mpr ⟨rfl, hrest⟩
    · exact List.forall_mem_cons.mpr ⟨rfl, fun call hcall => absurd hcall List.not_mem_nil⟩
    · exact hrest

theorem promotes_callsOf (judged : List (Bool × Trial)) :
    ((judged.flatMap callsOf).filter fun call => call.kind = .promote).map CollectorCall.obs =
      (judged.filter isPersisted).map fun judged => judged.2.obs := by
  induction judged with
  | nil => rfl
  | cons j judged ih =>
    obtain ⟨duplicate, t⟩ := j
    rw [List.flatMap_cons, List.filter_append, List.map_append, ih, List.filter_cons]
    cases duplicate with
    | true => simp [callsOf, isPersisted]
    | false =>
      cases hsaves : t.saves with
      | false => simp [callsOf, isPersisted, hsaves]
      | true => cases haudits : t.audits <;> simp [callsOf, isPersisted, hsaves, haudits]

/-! ### Persisting before promoting -/

/-- The observations that a run promotes, one for each call -/
def CollectorRun.promoted (run : CollectorRun) : List Observation :=
  (run.calls.filter fun call => call.kind = .promote).map CollectorCall.obs

/-- A run returns, promotes what has been persisted and nothing else, each once and after it has been, and
returns just that; and what becomes of an observation does not depend on what fails for others. -/
structure PromotesPersisted (filter : Option JsString) (probes : List ProbeScan) (cache : DedupCache) :
    Prop where
  returned : (runAll filter false probes cache).returned = some (persistedOf (trialsOf filter probes) cache)
  promoted : (runAll filter false probes cache).promoted = persistedOf (trialsOf filter probes) cache
  calls : (runAll filter false probes cache).calls = (judge (trialsOf filter probes) cache).flatMap callsOf
  isolated : ∀ probes', (trialsOf filter probes').map (fun t => (t.obs, t.now)) =
      (trialsOf filter probes).map (fun t => (t.obs, t.now)) →
    (judge (trialsOf filter probes') cache).map Prod.fst =
      (judge (trialsOf filter probes) cache).map Prod.fst

/-- Whatever the probes find and whatever fails: the run promotes and returns what has been persisted
exactly when no audit entry about a duplicate fails; it rejects in no other case; and a dry run saves and
promotes nothing. -/
theorem promotes_persisted_iff (filter : Option JsString) (probes : List ProbeScan) (cache : DedupCache) :
    (PromotesPersisted filter probes cache ↔ SuppressionsAudited (trialsOf filter probes) cache) ∧
      ((runAll filter false probes cache).returned = none ↔
        ¬ SuppressionsAudited (trialsOf filter probes) cache) ∧
      ∀ call ∈ (runAll filter true probes cache).calls, call.kind ≠ .save ∧ call.kind ≠ .promote := by
  have hrun (dryRun : Bool) : runAll filter dryRun probes cache =
      runTrials dryRun (trialsOf filter probes) cache := runProbes_eq dryRun _ cache
  refine ⟨⟨fun h => ?_, fun h => ?_⟩, ⟨fun hnone h => ?_, fun h => ?_⟩, fun call hcall => ?_⟩
  · by_contra hnot
    have hnone := @runTrials_rejects false _ _ hnot
    rw [← hrun, h.returned] at hnone
    cases hnone
  · obtain ⟨hreturned, hcalls⟩ := runTrials_returns h
    rw [← hrun] at hreturned hcalls
    refine ⟨hreturned, ?_, hcalls, fun probes' hsame => judge_congr hsame cache⟩
    rw [CollectorRun.promoted, hcalls]
    exact promotes_callsOf _
  · rw [hrun, (runTrials_returns h).1] at hnone
    cases hnone
  · rw [hrun]
    exact runTrials_rejects h
  · rw [hrun] at hcall
    rw [runTrials_dry _ _ call hcall]
    exact ⟨by decide, by decide⟩

/-! ### A duplicate that cannot be audited -/

/-- The fault is found by two probes, and the audit entry about the second one comes to this. -/
def twoProbes (audits : Bool) : List ProbeScan :=
  [⟨js "nas", some [⟨⟨crashLoop, some 0, true, true⟩, true⟩]⟩,
    ⟨js "nas", some [⟨⟨crashLoop, some 1000, true, audits⟩, true⟩]⟩]

/-- The entry fails, and the run rejects although the first observation has been promoted. -/
theorem suppression_rejects :
    ¬ ∀ (filter : Option JsString) (probes : List ProbeScan) (cache : DedupCache),
      PromotesPersisted filter probes cache := by
  intro h
  have hreturned := (h none (twoProbes false) ⟨.ofNat 3600000, []⟩).returned
  have hnone : (runAll none false (twoProbes false) ⟨.ofNat 3600000, []⟩).returned = none := by
    with_unfolding_all rfl
  rw [hnone] at hreturned
  cases hreturned

end Homelab
