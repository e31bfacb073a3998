import Homelab.Automaton
import Homelab.DriftObservation
import Homelab.RefreshEngine
import Homelab.Throttle
import Mathlib.Logic.Basic

/-! The collector of observations: what a run of a probe makes of a scan, with a cache that it shares
with the sweeps. -/
namespace Homelab
open Js Throttle

/-- What the cache was asked about; a time is `none` when it is `NaN`. -/
abbrev CacheOffer := Offer JsString (Option ℤ)

abbrev CacheAsk := Throttle.Ask JsString (Option ℤ)

/-- `now - last < windowMs` -/
def withinWindow (windowMs : JsNumber) (now last : Option ℤ) : Bool :=
  (JsNumber.dateDiff now last).lt windowMs

/-- `isDuplicate`, by the key of an observation -/
def DedupCache.check (cache : DedupCache) (key : JsString) (now : Option ℤ) : Bool × DedupCache :=
  let (duplicate, seen) := Throttle.check (withinWindow cache.windowMs) cache.seen key now
  (duplicate, { cache with seen })

variable {cache cache' : DedupCache} {windowMs : JsNumber}

theorem isDuplicate_eq (cache : DedupCache) (obs : DriftObservation) (now : Option ℤ) :
    cache.isDuplicate obs now = cache.check obs.dedupKey now := by
  have hbeq : @instBEqOfDecidableEq JsString _ = List.instBEq := lawful_beq_subsingleton _ _
  rw [DedupCache.isDuplicate, DedupCache.check, Throttle.check, hbeq]
  change _ = (fun checked : Bool × List (JsString × Option ℤ) =>
    (checked.1, { cache with seen := checked.2 }))
    (if (cache.seen.lookup obs.dedupKey).any (cache.within now) then _ else _)
  split_ifs <;> rfl

/-! ### Runs of a probe -/

/-- An observation of a scan, with the time at which it is checked and what becomes of its save and of
the audit entry about it -/
structure Scanned where
  obs : Observation
  now : Option ℤ
  saves : Bool
  audits : Bool

/-- What a run returns, unless an audit entry fails that is about a duplicate; what it has offered to
the cache, the last offer first; and the cache. -/
structure ProbeRun where
  returned : Option (List Observation)
  offers : List CacheOffer
  cache : DedupCache

def ProbeRun.after (run : ProbeRun) (offer : CacheOffer) (fresh : List Observation) : ProbeRun where
  returned := run.returned.map (fresh ++ ·)
  offers := run.offers ++ [offer]
  cache := run.cache

/-- `runProbe`, from what the scan has returned on -/
def collect (dryRun : Bool) : List Scanned → DedupCache → ProbeRun
  | [], cache => ⟨some [], [], cache⟩
  | s :: scanned, cache =>
    let (duplicate, cache) := cache.check s.obs.key s.now
    if duplicate then
      let offer := ⟨s.obs.key, s.now, true, false⟩
      -- the audit entry about a duplicate is not in a `try`
      if s.audits then (collect dryRun scanned cache).after offer [] else ⟨none, [offer], cache⟩
    else if dryRun then (collect dryRun scanned cache).after ⟨s.obs.key, s.now, false, false⟩ [s.obs]
    else if s.saves then
      (collect dryRun scanned cache).after ⟨s.obs.key, s.now, false, true⟩ (if s.audits then [s.obs] else [])
    else (collect dryRun scanned cache).after ⟨s.obs.key, s.now, false, false⟩ []

/-- `runProbe`; a scan that throws counts as one that finds nothing. -/
def runProbe (scan : Option (List Scanned)) (dryRun : Bool) (cache : DedupCache) : ProbeRun :=
  collect dryRun (scan.getD []) cache

/-! ### Sweeps -/

/-- What a sweep offers to the cache, the last offer first -/
def driftOffers (saves : DriftObservation → Bool) (sweepAt : JsString) (sweepMs : Option ℤ) :
    List DriftEvent → DedupCache → List CacheOffer × DedupCache
  | [], cache => ([], cache)
  | event :: events, cache =>
    match buildObservation event sweepAt with
    | none => driftOffers saves sweepAt sweepMs events cache
    | some obs =>
      let (duplicate, cache) := cache.isDuplicate obs sweepMs
      let rest := driftOffers saves sweepAt sweepMs events cache
      (rest.1 ++ [⟨obs.dedupKey, sweepMs, duplicate, !duplicate && saves obs⟩], rest.2)

/-- The observations that a sweep emits are those of its offers that are persisted. -/
theorem driftOffers_emitted (saves : DriftObservation → Bool) (sweepAt : JsString) (sweepMs : Option ℤ)
    (events : List DriftEvent) (cache : DedupCache) :
    (driftOffers saves sweepAt sweepMs events cache).2 = (emitDrift saves sweepAt sweepMs events cache).2 ∧
      (((driftOffers saves sweepAt sweepMs events cache).1.filter Offer.persisted).map Offer.key).reverse =
        (emitDrift saves sweepAt sweepMs events cache).1.map DriftObservation.dedupKey := by
  induction events generalizing cache with
  | nil => exact ⟨rfl, rfl⟩
  | cons event events ih =>
    rw [driftOffers, emitDrift]
    cases buildObservation event sweepAt with
    | none => exact ih cache
    | some obs =>
      dsimp only
      rcases cache.isDuplicate obs sweepMs with ⟨duplicate, cache'⟩
      obtain ⟨hcache, hkeys⟩ := ih cache'
      cases duplicate with
      | true =>
        refine ⟨hcache, ?_⟩
        rw [List.filter_append]
        simpa using hkeys
      | false =>
        dsimp only
        cases hsaves : saves obs with
        | true =>
          refine ⟨hcache, ?_⟩
          rw [if_pos rfl, List.filter_append, List.map_append, List.reverse_append, hkeys]
          rfl
        | false =>
          refine ⟨hcache, ?_⟩
          rw [List.filter_append]
          simpa using hkeys

/-! ### Sequences of both -/

/-- The offers are those of some questions to the cache. -/
def Offered (cache : DedupCache) (offers : List CacheOffer) (cache' : DedupCache) : Prop :=
  cache'.windowMs = cache.windowMs ∧
    ∃ asks, askAll (withinWindow cache.windowMs) asks cache.seen = (offers, cache'.seen)

theorem offered_nil (cache : DedupCache) : Offered cache [] cache := ⟨rfl, [], rfl⟩

theorem offered_check {offers : List CacheOffer} {key : JsString} {now : Option ℤ} (saves : Bool)
    (h : Offered (cache.check key now).2 offers cache') :
    Offered cache (offers ++ [⟨key, now, (cache.check key now).1,
      !(cache.check key now).1 && saves⟩]) cache' := by
  obtain ⟨hwindow, asks, hasks⟩ := h
  refine ⟨hwindow, ⟨key, now, saves⟩ :: asks, ?_⟩
  rw [askAll]
  exact congrArg (fun rest : List CacheOffer × List (JsString × Option ℤ) =>
    (rest.1 ++ [⟨key, now, (cache.check key now).1, !(cache.check key now).1 && saves⟩], rest.2)) hasks

theorem offered_collect (dryRun : Bool) (scanned : List Scanned) (cache : DedupCache) :
    Offered cache (collect dryRun scanned cache).offers (collect dryRun scanned cache).cache := by
  induction scanned generalizing cache with
  | nil => exact offered_nil cache
  | cons s scanned ih =>
    have hgoesOn (saves : Bool) := offered_check saves (ih (cache.check s.obs.key s.now).2)
    have hends := offered_check false (offered_nil (cache.check s.obs.key s.now).2)
    rw [collect]
    dsimp only
    cases hduplicate : (cache.check s.obs.key s.now).1 with
    | true =>
      rw [hduplicate] at hgoesOn hends
      rw [if_pos rfl]
      split_ifs
      · exact hgoesOn false
      · exact hends
    | false =>
      rw [hduplicate] at hgoesOn
      rw [if_neg (by decide)]
      by_cases hdry : dryRun = true
      · rw [if_pos hdry]
        exact hgoesOn false
      · rw [if_neg hdry]
        by_cases hsaves : s.saves = true
        · rw [if_pos hsaves]
          exact hgoesOn true
        · rw [if_neg hsaves]
          exact hgoesOn false

theorem offered_drift (saves : DriftObservation → Bool) (sweepAt : JsString) (sweepMs : Option ℤ)
    (events : List DriftEvent) (cache : DedupCache) :
    Offered cache (driftOffers saves sweepAt sweepMs events cache).1
      (driftOffers saves sweepAt sweepMs events cache).2 := by
  induction events generalizing cache with
  | nil => exact offered_nil cache
  | cons event events ih =>
    rw [driftOffers]
    cases buildObservation event sweepAt with
    | none => exact ih cache
    | some obs =>
      dsimp only
      rw [isDuplicate_eq]
      exact offered_check (saves obs) (ih _)

/-- The cache, and all that it was asked about, the last offer first -/
structure CacheRun where
  cache : DedupCache
  trail : List CacheOffer

inductive CacheTurn
  | runProbe (scan : Option (List Scanned)) (dryRun : Bool)
  | sweep (rt : SweepRuntime) (input : SweepInput) (prior : GraphDocument)

/-- The state after a turn; a sweep that throws has asked the cache about nothing. -/
def CacheRun.next (s : CacheRun) : CacheTurn → CacheRun
  | .runProbe scan dryRun =>
    let run := Homelab.runProbe scan dryRun s.cache
    ⟨run.cache, run.offers ++ s.trail⟩
  | .sweep rt input prior =>
    match rt.sweep input prior s.cache with
    | none => s
    | some (result, _, cache) =>
      ⟨cache, (driftOffers input.saves input.sweepAt (rt.dateMs input.sweepAt)
        result.driftEvents s.cache).1 ++
        s.trail⟩

/-- Probes run and sweeps are made, in any order. -/
def cacheRuns : Automaton CacheRun CacheTurn where
  allowed _ _ := True
  next := CacheRun.next

/-- A new cache with this window -/
def newCache (windowMs : JsNumber) : CacheRun := ⟨⟨windowMs, []⟩, []⟩

theorem offered_turn (s : CacheRun) (turn : CacheTurn) :
    ∃ offers, (s.next turn).trail = offers ++ s.trail ∧ Offered s.cache offers (s.next turn).cache := by
  cases turn with
  | runProbe scan dryRun => exact ⟨_, rfl, offered_collect dryRun (scan.getD []) s.cache⟩
  | sweep rt input prior =>
    rw [CacheRun.next]
    cases hsweep : rt.sweep input prior s.cache with
    | none => exact ⟨[], rfl, offered_nil s.cache⟩
    | some swept =>
      obtain ⟨result, post, cache'⟩ := swept
      refine ⟨_, rfl, ?_⟩
      have hcache : cache' = (emitDrift input.saves input.sweepAt (rt.dateMs input.sweepAt) result.driftEvents
          s.cache).2 := by
        obtain ⟨post', -, h⟩ := Option.map_eq_some_iff.mp hsweep
        cases h
        rfl
      dsimp only
      rw [hcache, ← (driftOffers_emitted ..).1]
      exact offered_drift ..

/-- The marks of the cache are those of the last offers that it let through. -/
structure CacheLaw (windowMs : JsNumber) (s : CacheRun) : Prop where
  window : s.cache.windowMs = windowMs
  marks : MarksLaw (withinWindow windowMs) s.cache.seen s.trail

theorem cacheLaw_turn {s : CacheRun} (h : CacheLaw windowMs s) (turn : CacheTurn) :
    CacheLaw windowMs (s.next turn) := by
  obtain ⟨offers, htrail, hwindow, asks, hasks⟩ := offered_turn s turn
  have hmarks := marksLaw_askAll asks h.marks
  rw [h.window] at hasks
  rw [hasks, ← htrail] at hmarks
  exact ⟨hwindow.trans h.window, hmarks⟩

theorem cacheLaw_reached {s : CacheRun}
    (h : cacheRuns.Reaches Automaton.anyEvent (newCache windowMs) s) : CacheLaw windowMs s := by
  apply h.invariant
  · exact ⟨rfl, fun _ => rfl, trivial⟩
  · intro s turn hlaw _ _
    exact cacheLaw_turn hlaw turn

/-! ### Suppression -/

/-- The one date is not after the other. -/
def NotAfter (a b : Option ℤ) : Prop := ∃ x y, a = some x ∧ b = some y ∧ x ≤ y

theorem withinWindow_earlier (a b c : Option ℤ) (hba : NotAfter b a)
    (h : withinWindow windowMs a c = true) : withinWindow windowMs b c = true := by
  obtain ⟨x, y, rfl, rfl, hxy⟩ := hba
  cases c with
  | none => cases h
  | some z => exact JsNumber.lt_ofScaledInt_mono h (sub_le_sub_right hxy z)

theorem withinWindow_later (a c d : Option ℤ) (hcd : NotAfter c d)
    (h : withinWindow windowMs a c = true) : withinWindow windowMs a d = true := by
  obtain ⟨x, y, rfl, rfl, hxy⟩ := hcd
  cases a with
  | none => cases h
  | some z => exact JsNumber.lt_ofScaledInt_mono h (sub_le_sub_left hxy z)

/-- In every sequence of probes and sweeps with one cache, some of which are dry runs and some of whose
saves fail: an observation is suppressed only if one with its key has been persisted within the window
before it, when no observation that the cache lets through and that is not persisted is followed by one
with its key within the window; and only then, as long as the clock does not go back. -/
theorem suppressed_recorded_iff (windowMs : JsNumber) (s : CacheRun)
    (hreaches : cacheRuns.Reaches Automaton.anyEvent (newCache windowMs) s) :
    (s.trail.Pairwise (Backed (withinWindow windowMs)) →
        EveryOffer (Throttle.Recorded (withinWindow windowMs)) s.trail) ∧
      (s.trail.Pairwise (fun e r => NotAfter r.time e.time) →
        EveryOffer (Throttle.Recorded (withinWindow windowMs)) s.trail →
          s.trail.Pairwise (Backed (withinWindow windowMs))) := by
  have htold := (cacheLaw_reached hreaches).marks.told
  constructor
  · exact recorded_of_backed htold
  · intro hclock
    exact backed_of_recorded withinWindow_earlier withinWindow_later htold hclock

/-! ### A save that fails -/

def crashLoop : Observation where
  id := js "o1"
  platform := js "nas"
  pattern := js "crash_loop"
  resource := js "Pod/web"
  severity := .p1
  discoveredAt := js "2026-05-01T00:00:00.000Z"
  details := none
  dedupKey := none

/-- The fault is found at the time, and its save fails or not. -/
def foundAt (now : ℤ) (saves : Bool) : CacheTurn :=
  .runProbe (some [⟨crashLoop, some now, saves, true⟩]) false

/-- The fault is found twice within a second, and the first save comes to this. -/
def foundTwice (saves : Bool) : CacheRun :=
  cacheRuns.after (newCache (.ofNat 3600000)) [foundAt 0 saves, foundAt 1000 true]

theorem foundTwice_reached (saves : Bool) :
    cacheRuns.Reaches Automaton.anyEvent (newCache (.ofNat 3600000)) (foundTwice saves) := by
  apply Automaton.Permits.reaches
  exact ⟨trivial, trivial, trivial, trivial, trivial⟩

theorem suppressed_recorded_iff_foundTwice :
    ((foundTwice true).trail.Pairwise (Backed (withinWindow (.ofNat 3600000))) →
        EveryOffer (Throttle.Recorded (withinWindow (.ofNat 3600000))) (foundTwice true).trail) ∧
      ((foundTwice true).trail.Pairwise (fun e r => NotAfter r.time e.time) →
        EveryOffer (Throttle.Recorded (withinWindow (.ofNat 3600000))) (foundTwice true).trail →
          (foundTwice true).trail.Pairwise (Backed (withinWindow (.ofNat 3600000)))) :=
  suppressed_recorded_iff _ _ (foundTwice_reached true)

/-- The first save fails, and the fault is suppressed all the same. -/
theorem unsaved_suppresses : ¬ ∀ (windowMs : JsNumber) (s : CacheRun),
    cacheRuns.Reaches Automaton.anyEvent (newCache windowMs) s →
    EveryOffer (Throttle.Recorded (withinWindow windowMs)) s.trail := by
  intro h
  have htrail : (foundTwice false).trail =
      [⟨crashLoop.key, some 1000, true, false⟩, ⟨crashLoop.key, some 0, false, false⟩] := by
    with_unfolding_all rfl
  have hlaw := h _ _ (foundTwice_reached false)
  rw [htrail] at hlaw
  obtain ⟨r, hr, hpersisted, -⟩ := hlaw.1 rfl
  rw [List.mem_singleton.mp hr] at hpersisted
  cases hpersisted

end Homelab
