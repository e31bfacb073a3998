import Homelab.DockerEnumerator
import Homelab.SweepFrame
import Homelab.UnraidEnumerator

/-! Sweeps over platforms whose enumerators are those that are built in, and what becomes of a platform
whose commands all fail. -/
namespace Homelab
open Js Dialogue Locked

/-! ### Visits -/

/-- The enumerators of Proxmox VE and Kubernetes, which are not implemented yet -/
def stubEnumerate (_ : EnumerationContext) : Enumeration EnumerationResult := .done .none

/-- The registry, once the built-in enumerators have been registered -/
def getEnumerator (platformKind : JsString) : Option (EnumerationContext → Enumeration EnumerationResult) :=
  if platformKind ∈ [js "docker-swarm", js "docker", js "portainer"] then some dockerEnumerate
  else if platformKind ∈ [js "proxmox-ve", js "kubernetes"] then some stubEnumerate
  else if platformKind = js "unraid" then some unraidEnumerate
  else none

/-- A platform of the inventory, what `getConnection` comes to and what its commands were answered -/
structure PlatformRun where
  platformId : JsString
  platformKind : JsString
  host : Option JsString
  connection : Except JsString Unit
  log : List (Exchange fun _ : JsString => ExecOutcome)

def visitOf : Except JsString EnumerationResult → Visit
  | .ok result => .enumerated result.entities result.edges
  | .error message => .enumerationFailed message

/-- What the run of a platform comes to, up to the upserts. -/
inductive Visits (now : JsString) (run : PlatformRun) : Visit → Prop
  | noEnumerator (h : getEnumerator run.platformKind = none) : Visits now run .noEnumerator
  | connectionFailed {message : JsString} (h : getEnumerator run.platformKind ≠ none)
      (hconnection : run.connection = .error message) : Visits now run (.connectionFailed message)
  | enumerated {enumerate : EnumerationContext → Enumeration EnumerationResult}
      {result : Except JsString EnumerationResult} (h : getEnumerator run.platformKind = some enumerate)
      (hconnection : run.connection = .ok ())
      (htalks : Talks (fun _ _ => True) (enumerate ⟨run.platformId, run.host, now⟩) run.log result) :
      Visits now run (visitOf result)

/-- The platforms of the sweep are those of the runs. -/
def Enumerated (now : JsString) (runs : List PlatformRun) (input : SweepInput) : Prop :=
  List.Forall₂ (fun run p => p.platformId = run.platformId ∧ p.platformKind = run.platformKind ∧
    Visits now run p.visit) runs input.platforms

/-- The platform has a registered enumerator, and each of its commands throws or exits with another code
than zero. -/
def Unreachable (p : JsString) (runs : List PlatformRun) : Prop :=
  ∀ run ∈ runs, run.platformId = p →
    getEnumerator run.platformKind ≠ none ∧ ∀ x ∈ run.log, ExecOutcome.Failed x.answer

variable {now p : JsString} {run : PlatformRun} {runs : List PlatformRun} {rt : SweepRuntime}
  {input : SweepInput} {prior post : GraphDocument} {id : JsString} {e x : JsValue}

theorem getEnumerator_cases {kind : JsString}
    {enumerate : EnumerationContext → Enumeration EnumerationResult}
    (h : getEnumerator kind = some enumerate) :
    enumerate = dockerEnumerate ∨ enumerate = stubEnumerate ∨ enumerate = unraidEnumerate := by
  rw [getEnumerator] at h
  split_ifs at h
  · exact .inl (Option.some.inj h).symm
  · exact .inr (.inl (Option.some.inj h).symm)
  · exact .inr (.inr (Option.some.inj h).symm)

/-- The built-in enumerators build all their records at the time of the pass. -/
theorem enumerate_found {kind : JsString} {enumerate : EnumerationContext → Enumeration EnumerationResult}
    (h : getEnumerator kind = some enumerate) (ctx : EnumerationContext) :
    Returns (fun _ _ => True) (FoundNow ctx) (enumerate ctx) := by
  rcases getEnumerator_cases h with rfl | rfl | rfl
  · exact dockerEnumerate_found _
  · exact returns_done foundNow_none
  · exact unraidEnumerate_found _

/-- On a host that answers no command they find nothing, and do not throw. -/
theorem enumerate_unanswered {kind : JsString}
    {enumerate : EnumerationContext → Enumeration EnumerationResult}
    (h : getEnumerator kind = some enumerate) (ctx : EnumerationContext) :
    Yields Unanswered .none (enumerate ctx) := by
  rcases getEnumerator_cases h with rfl | rfl | rfl
  · exact dockerEnumerate_unanswered
  · exact yields_done _
  · exact unraidEnumerate_unanswered

theorem visits_reported {visit : Visit} (h : Visits now run visit) (part : GraphPart) (record : Fields)
    (hrecord : record ∈ visit.reports part) : ReportedAt part run.platformId now record := by
  cases h with
  | noEnumerator h => cases part <;> cases hrecord
  | connectionFailed h hconnection => cases part <;> cases hrecord
  | @enumerated enumerate result h hconnection htalks =>
    cases result with
    | error message => cases part <;> cases hrecord
    | ok result =>
      have hfound := enumerate_found h ⟨run.platformId, run.host, now⟩ _ _ htalks
      cases part with
      | entities => exact hfound.1 record hrecord
      | edges => exact hfound.2 record hrecord

theorem visits_unanswered {visit : Visit} (h : Visits now run visit)
    (hlog : ∀ x ∈ run.log, ExecOutcome.Failed x.answer) (part : GraphPart) : visit.reports part = [] := by
  cases h with
  | noEnumerator h => cases part <;> rfl
  | connectionFailed h hconnection => cases part <;> rfl
  | @enumerated enumerate result h hconnection htalks =>
    have hnone := enumerate_unanswered h ⟨run.platformId, run.host, now⟩ _ _ (htalks.of_log hlog)
    rw [hnone]
    cases part <;> rfl

theorem Enumerated.run_of (h : Enumerated now runs input) {q : PlatformVisit} (hq : q ∈ input.platforms) :
    ∃ run ∈ runs, q.platformId = run.platformId ∧ Visits now run q.visit := by
  rw [Enumerated] at h
  generalize input.platforms = platforms at h hq
  induction h with
  | nil => cases hq
  | cons hfirst _ ih =>
    rcases List.mem_cons.mp hq with rfl | hq
    · exact ⟨_, List.mem_cons_self .., hfirst.1, hfirst.2.2⟩
    · obtain ⟨run, hrun, hid, hvisits⟩ := ih hq
      exact ⟨run, List.mem_cons_of_mem _ hrun, hid, hvisits⟩

theorem enumerated_reports (h : Enumerated now runs input) : ReportsAt input now := by
  rintro part _ record ⟨q, hq, -, rfl, hrecord⟩
  obtain ⟨run, hrun, hid, hvisits⟩ := h.run_of hq
  rw [hid]
  exact visits_reported hvisits part record hrecord

/-- A platform that answers no command has reported nothing. -/
theorem unreachable_silent (h : Enumerated now runs input) (hp : Unreachable p runs) (part : GraphPart)
    (record : Fields) : ¬ input.Reports part p record := by
  rintro ⟨q, hq, -, hqp, hrecord⟩
  obtain ⟨run, hrun, hid, hvisits⟩ := h.run_of hq
  have hlog := (hp run hrun (hid.symm.trans hqp)).2
  rw [visits_unanswered hvisits hlog part] at hrecord
  cases hrecord

/-! ### What the claim is about -/

/-- The sweep marks nothing of the platform and reports no drift of it. -/
structure LeavesAlone (rt : SweepRuntime) (input : SweepInput) (prior post : GraphDocument)
    (result : SweepResult) (p : JsString) : Prop where
  entities : ∀ id e, recordById id (rt.enumerate input prior).1.entities = some e →
    property (js "platformId") e = .str p → SameStatus .entities id e post
  edges : ∀ id e, recordById id (rt.enumerate input prior).1.edges = some e →
    (∃ endpoint ∈ [js "from", js "to"],
      Reconciliation.endPlatform (rt.enumerate input prior).1.entities endpoint e = .str p) →
    SameStatus .edges id e post
  observations : ∀ obs ∈ result.observations, obs.platform ≠ p

/-- Nothing of the platform is due: unless its connection has failed or it has been filtered out, no
entity of it that is not reported by another is due or has fewer replicas running than desired; and no
edge with an end on it is due that borrows an enumerated platform. -/
structure NothingDue (rt : SweepRuntime) (input : SweepInput) (prior : GraphDocument) (p : JsString) :
    Prop where
  entities : input.succeeded p → ∀ id e, recordById id prior.entities = some e →
    property (js "platformId") e = .str p → ¬ rt.Reported input .entities id →
    ¬ rt.Due input e ∧ replicaDrift e = []
  edges : ∀ id x, rt.held input prior .edges id = some x →
    (∃ endpoint ∈ [js "from", js "to"], rt.endPlatform input prior endpoint x = .str p) →
    ∀ q, rt.borrowedPlatform input prior x = .str q → input.succeeded q → ¬ rt.Due input x

/-! ### The entities of the platform -/

/-- The entities of the platform that the enumeration leaves are those of the graph before, but for the
ones that others report. -/
theorem entity_of_silent (hreports : ReportsAt input now)
    (hsilent : ∀ record, ¬ input.Reports .entities p record)
    (hvalid : ValidGraph rt.isDateTime prior) :
    recordById id (rt.enumerate input prior).1.entities = some e ∧ property (js "platformId") e = .str p ↔
      recordById id prior.entities = some e ∧ property (js "platformId") e = .str p ∧
        ¬ rt.Reported input .entities id := by
  have hmerged {e : JsValue} (he : recordById id (rt.enumerate input prior).1.entities = some e)
      (hp : property (js "platformId") e = .str p) : recordById id prior.entities = some e := by
    rcases (rt.enumerates input prior).follows .entities
      id with hsame | ⟨record, ⟨q, hrecord⟩, -, x, hx, hread⟩
    · exact hsame.symm.trans he
    · obtain rfl : e = x := Option.some.inj (he.symm.trans hx)
      have hq := (hreports .entities q record hrecord).platform rfl
      have hplatform := hread (js "platformId") (by rw [hq]; exact JsValue.noConfusion)
      rw [hp, hq] at hplatform
      cases hplatform
      exact absurd hrecord (hsilent record)
  constructor
  · rintro ⟨he, hp⟩
    have hprior := hmerged he hp
    refine ⟨hprior, hp, ?_⟩
    intro hreported
    rcases @held_cases rt input prior .entities id e hprior with ⟨-, hnot⟩ | ⟨q, record, hrecord, -, hheld⟩
    · exact hnot hreported
    · obtain ⟨y, hy, hread⟩ := (SweepRuntime.agree_enumerate hreports hvalid .entities id).of_held hheld
      obtain rfl : e = y := Option.some.inj (he.symm.trans hy)
      have hplatform := hread (js "platformId") (List.mem_cons_self ..)
      rw [hp, property_obj, (hreports .entities q record hrecord).platform rfl] at hplatform
      cases hplatform
      exact hsilent record hrecord
  · rintro ⟨he, hp, hnot⟩
    refine ⟨?_, hp⟩
    rcases @held_cases rt input prior .entities id e he with ⟨hheld, -⟩ | ⟨q, record, -, hreported, -⟩
    · obtain ⟨y, hy, hread⟩ := (SweepRuntime.agree_enumerate hreports hvalid .entities id).of_held hheld
      have hplatform := (hread (js "platformId") (List.mem_cons_self ..)).trans hp
      obtain rfl : y = e := Option.some.inj ((hmerged hy hplatform).symm.trans he)
      exact hy
    · exact absurd hreported hnot

/-- A record keeps its status in the reconciliation just when there is no verdict on it. -/
theorem sameStatus_reconciled {part : GraphPart} (hvalid : ValidGraph rt.isDateTime prior)
    (he : recordById id (part.records (rt.enumerate input prior).1) = some e) :
    SameStatus part id e
        (reconciled (rt.reconciliation input (rt.enumerate input prior).2) (rt.enumerate input prior).1) ↔
      (rt.reconciliation input (rt.enumerate input prior).2).verdict (rt.enumerate input prior).1 part e =
        none := by
  have hvalid' := (rt.enumerates input prior).valid hvalid
  have hpost := recordById_reconciled (rt.reconciliation input (rt.enumerate input prior).2) hvalid' part id
  rw [he, Option.map_some] at hpost
  have hform : WellFormed e := hvalid'.wellFormed (recordById_mem he).1
  have hself : SameStatus part id e (rt.enumerate input prior).1 := ⟨e, he, rfl⟩
  calc SameStatus part id e (reconciled _ _)
      ↔ SameStatus part id e (rt.enumerate input prior).1 ∧ SameStatus part id e (reconciled _ _) :=
        (and_iff_right hself).symm
    _ ↔ property (js "status") e = property (js "status") e ∧ _ :=
        sameStatus_iff he hpost hform fun _ => Reconciliation.verdict_changes
    _ ↔ Reconciliation.verdict _ _ part e = none := and_iff_right rfl

/-- An entity of the platform is not marked just when its connection has failed or it is not due. -/
theorem entity_unmarked (hvalid : ValidGraph rt.isDateTime prior)
    (he : recordById id (rt.enumerate input prior).1.entities = some e)
    (hp : property (js "platformId") e = .str p) :
    SameStatus .entities id e
        (reconciled (rt.reconciliation input (rt.enumerate input prior).2) (rt.enumerate input prior).1) ↔
      (input.succeeded p → ¬ rt.Due input e) := by
  rw [@sameStatus_reconciled rt input prior id e .entities hvalid he]
  change Reconciliation.entityVerdict _ e = none ↔ _
  rw [entityVerdict_due rfl rfl]
  have hcovers : input.covers e ↔ input.succeeded p := by
    constructor
    · rintro ⟨q, hq, hpq⟩
      rw [hp] at hpq
      cases hpq
      exact hq
    · exact fun hsucceeded => ⟨p, hsucceeded, hp⟩
  rw [hcovers]

theorem edge_unmarked (hreports : ReportsAt input now) (hvalid : ValidGraph rt.isDateTime prior)
    (he : recordById id (rt.enumerate input prior).1.edges = some e)
    (hreads : ∀ k ∈ GraphPart.edges.reads, property k e = property k x) :
    SameStatus .edges id e
        (reconciled (rt.reconciliation input (rt.enumerate input prior).2) (rt.enumerate input prior).1) ↔
      ∀ q, rt.borrowedPlatform input prior x = .str q → input.succeeded q → ¬ rt.Due input x := by
  rw [@sameStatus_reconciled rt input prior id e .edges hvalid he]
  exact edgeVerdict_due hreports hvalid hreads

/-! ### The drift of the platform -/

/-- An entity that has not changed has no other drift than that of its replicas. -/
theorem diffEntity_self (e : JsValue) : diffEntity (some e) e = replicaDrift e := by
  have hgone : goneDrift e e = [] := by
    rw [goneDrift, Bool.and_not_self]
    rfl
  have himage : imageDrift e e = [] := by
    rw [imageDrift]
    cases attributeOf (js "image") e with
    | str image => exact if_neg (not_not_intro rfl)
    | _ => rfl
  rw [diffEntity, hgone, himage, List.nil_append, List.append_nil]

theorem mem_computeDiff {before after : List JsValue} {succeeded : List JsString} {event : DriftEvent} :
    event ∈ computeDiff before after succeeded ↔ ∃ y ∈ after, onPlatform succeeded y = true ∧
      event ∈ diffEntity (priorById before (property (js "id") y)) y := by
  rw [computeDiff, List.mem_flatMap]
  refine exists_congr fun y => and_congr_right fun _ => ?_
  split_ifs with hplatform
  · exact (and_iff_right hplatform).symm
  · exact ⟨fun h => absurd h List.not_mem_nil, fun h => absurd h.1 hplatform⟩

theorem entity_of_diffEntity {before : Option JsValue} {y : JsValue} {event : DriftEvent}
    (h : event ∈ diffEntity before y) : event.entity = y := by
  cases before with
  | none =>
    rw [List.mem_singleton.mp h]
    rfl
  | some x =>
    rw [diffEntity, List.mem_append, List.mem_append] at h
    rcases h with (h | h) | h
    · rw [goneDrift] at h
      split_ifs at h
      · rw [List.mem_singleton.mp h]
        rfl
      · cases h
    · rw [replicaDrift] at h
      split at h
      · split_ifs at h
        · rw [List.mem_singleton.mp h]
          rfl
        · cases h
      · cases h
    · rw [imageDrift] at h
      split at h
      · split_ifs at h
        · rw [List.mem_singleton.mp h]
          rfl
        · cases h
      · cases h

/-- An observation is about the platform of its entity. -/
theorem platform_of_observation {event : DriftEvent} {at' : JsString} {obs : DriftObservation}
    (h : buildObservation event at' = some obs)
    (hp : property (js "platformId") event.entity = .str p) : obs.platform = p := by
  have hcoerce (entity : JsValue) (hp : property (js "platformId") entity = .str p) :
      (nullish (property (js "platformId") entity) (.str (js "unknown"))).coerce = p := by
    rw [hp]
    rfl
  cases event with
  | entityAdded entity => cases h
  | entityGone entity =>
    cases h
    exact hcoerce entity hp
  | replicaMismatch entity running desired =>
    cases h
    exact hcoerce entity hp
  | imageChanged entity previous current =>
    cases h
    exact hcoerce entity hp

theorem dateDiff_self_lt (now : Option ℤ) : (JsNumber.dateDiff now now).lt (.ofNat 0) = false := by
  cases now with
  | none => rfl
  | some a =>
    rw [JsNumber.dateDiff_some, sub_self]
    decide +kernel

/-- Without a window nothing is a duplicate, and what can be saved is reported. -/
theorem emitDrift_all {at' : JsString} {atMs : Option ℤ} {events : List DriftEvent} {cache : DedupCache}
    (hwindow : cache.windowMs = .ofNat 0) (hseen : ∀ s ∈ cache.seen, s.2 = atMs) {event : DriftEvent}
    (hevent : event ∈ events) {obs : DriftObservation} (hobs : buildObservation event at' = some obs) :
    obs ∈ (emitDrift (fun _ => true) at' atMs events cache).1 := by
  induction events generalizing cache with
  | nil => cases hevent
  | cons first rest ih =>
    rw [emitDrift]
    cases hfirst : buildObservation first at' with
    | none =>
      rcases List.mem_cons.mp hevent with rfl | hevent
      · rw [hobs] at hfirst
        cases hfirst
      · exact ih hwindow hseen hevent
    | some built =>
      have hfresh : cache.isDuplicate built atMs = (false, { cache with
          seen := (built.dedupKey, atMs) :: cache.seen.filter fun s => s.1 ≠ built.dedupKey }) := by
        rw [DedupCache.isDuplicate, if_neg]
        rw [Bool.not_eq_true, Option.any_eq_false]
        intro last hlast
        obtain ⟨l₁, l₂, hsplit, -⟩ := List.lookup_eq_some_iff.mp hlast
        have hmem : (built.dedupKey, last) ∈ cache.seen := by
          rw [hsplit]
          exact List.mem_append_right _ (List.mem_cons_self ..)
        obtain rfl : last = atMs := hseen _ hmem
        rw [DedupCache.within, hwindow, dateDiff_self_lt]
      dsimp only
      rw [hfresh]
      dsimp only
      rw [if_pos rfl]
      rcases List.mem_cons.mp hevent with rfl | hevent
      · rw [hobs] at hfirst
        cases hfirst
        exact List.mem_cons_self ..
      · apply List.mem_cons_of_mem
        apply ih _ _ hevent
        · exact hwindow
        · intro s hs
          rcases List.mem_cons.mp hs with rfl | hs
          · rfl
          · exact hseen s (List.mem_filter.mp hs).1

/-- A mismatch of replicas is reported, of the platform of the entity. -/
theorem observation_of_replicaDrift (h : replicaDrift e ≠ []) (at' : JsString)
    (hp : property (js "platformId") e = .str p) :
    ∃ event ∈ replicaDrift e, ∃ obs, buildObservation event at' = some obs ∧ obs.platform = p := by
  obtain ⟨event, hevent⟩ := List.exists_mem_of_ne_nil _ h
  have hmismatch : ∃ running desired, event = .replicaMismatch e running desired := by
    rw [replicaDrift] at hevent
    split at hevent
    · split_ifs at hevent
      · exact ⟨_, _, List.mem_singleton.mp hevent⟩
      · cases hevent
    · cases hevent
  obtain ⟨running, desired, rfl⟩ := hmismatch
  exact ⟨_, hevent, _, rfl, @platform_of_observation _ (.replicaMismatch e running desired) _ _ rfl hp⟩

/-! ### The law -/

/-- When nothing is due, an entity of the platform is after the sweep as it was before. -/
theorem unchanged_of_nothingDue (henumerated : Enumerated now runs input)
    (hunreachable : Unreachable p runs) (hvalid : ValidGraph rt.isDateTime prior)
    (hnothing : NothingDue rt input prior p)
    (hp : property (js "platformId") e = .str p)
    (he : recordById id (reconciled (rt.reconciliation input (rt.enumerate input prior).2)
      (rt.enumerate input prior).1).entities = some e) :
    recordById id prior.entities = some e ∧ (input.succeeded p → replicaDrift e = []) := by
  have hreports := enumerated_reports henumerated
  have hsilent := unreachable_silent henumerated hunreachable .entities
  have hvalid' := (rt.enumerates input prior).valid hvalid
  have hpost := recordById_reconciled (rt.reconciliation input (rt.enumerate input prior).2) hvalid'
    .entities id
  obtain ⟨y, hy, hjudged⟩ := Option.map_eq_some_iff.mp (hpost.symm.trans he)
  have hform : WellFormed y := hvalid'.wellFormed (recordById_mem hy).1
  have hyp : property (js "platformId") y = .str p := by
    rw [← hp, ← hjudged]
    exact (property_judged hform (by decide)).symm
  obtain ⟨hprior, -, hnot⟩ := (entity_of_silent hreports hsilent hvalid).mp ⟨hy, hyp⟩
  have hunmarked : (rt.reconciliation input (rt.enumerate input prior).2).entityVerdict y = none := by
    rw [entityVerdict_due rfl rfl]
    rintro ⟨q, hq, hyq⟩
    rw [hyp] at hyq
    cases hyq
    exact (hnothing.entities hq id y hprior hyp hnot).1
  have hsame : y = e := by
    rw [← hjudged]
    exact (judged_of_none hunmarked).symm
  rw [← hsame]
  exact ⟨hprior, fun hsucceeded => (hnothing.entities hsucceeded id y hprior hyp hnot).2⟩

theorem sweep_result {cache cache' : DedupCache} {result : SweepResult}
    (hvalid : ValidGraph rt.isDateTime prior) (hunique : UniqueGraph prior)
    (h : rt.sweep input prior cache = some (result, post, cache')) :
    post = reconciled (rt.reconciliation input (rt.enumerate input prior).2) (rt.enumerate input prior).1 ∧
      result.driftEvents = computeDiff prior.entities post.entities
        (succeededPlatformIds (rt.enumerate input prior).2) ∧
      result.observations =
        (emitDrift input.saves input.sweepAt (rt.dateMs input.sweepAt) result.driftEvents cache).1 := by
  have henum := rt.enumerates input prior
  have hreconcile := @reconcile_eq _ _ (rt.reconciliation input (rt.enumerate input prior).2)
    (henum.valid hvalid) (henum.unique hunique)
  rw [SweepRuntime.sweep] at h
  dsimp only at h
  rw [hreconcile] at h
  cases h
  exact ⟨rfl, rfl, rfl⟩

theorem endpoint_read {endpoint : JsString} (h : endpoint ∈ [js "from", js "to"]) :
    endpoint ∈ GraphPart.edges.reads := (List.sublist_append_left [js "from", js "to"] _).mem h

/-- A platform that answers no command is left alone, whatever the store saves and the cache holds, just
when nothing of it is due. -/
theorem unreachable_left_alone (rt : SweepRuntime) (now : JsString) (runs : List PlatformRun)
    (input : SweepInput) (henumerated : Enumerated now runs input) (prior : GraphDocument)
    (hvalid : ValidGraph rt.isDateTime prior) (hunique : UniqueGraph prior) (p : JsString)
    (hunreachable : Unreachable p runs) :
    (∀ saves cache result post cache',
      rt.sweep { input with saves } prior cache = some (result, post, cache') →
        LeavesAlone rt input prior post result p) ↔ NothingDue rt input prior p := by
  have hreports := enumerated_reports henumerated
  have hsilent := unreachable_silent henumerated hunreachable .entities
  have hvalid' := (rt.enumerates input prior).valid hvalid
  have hunique' := (rt.enumerates input prior).unique hunique
  constructor
  · intro halone
    obtain ⟨result, cache', hsweep, -⟩ := sweep_eq { input with saves := fun _ => true } hvalid hunique
      ⟨.ofNat 0, []⟩
    have hlaw := halone _ _ _ _ _ hsweep
    obtain ⟨-, hevents, hobservations⟩ := sweep_result hvalid hunique hsweep
    constructor
    · intro hsucceeded id e he hp hnot
      obtain ⟨hcurrent, -⟩ := (entity_of_silent hreports hsilent hvalid).mpr ⟨he, hp, hnot⟩
      have hnotDue := (entity_unmarked hvalid hcurrent hp).mp (hlaw.entities id e hcurrent hp) hsucceeded
      refine ⟨hnotDue, ?_⟩
      by_contra hdrift
      obtain ⟨event, hevent, obs, hobs, hplatform⟩ := observation_of_replicaDrift hdrift input.sweepAt hp
      -- the entity is after the sweep as it was before, so its only drift is that of its replicas
      have hnone : (rt.reconciliation input (rt.enumerate input prior).2).entityVerdict e = none :=
        (entityVerdict_due rfl rfl).mpr fun _ => hnotDue
      have hpost := @recordById_unmarked _ _ .entities id _ hvalid' e hcurrent hnone
      have hprior : priorById prior.entities (property (js "id") e) = some e := by
        rw [idOf_eq_some.mp (recordById_mem he).2, priorById_eq hunique.1]
        exact he
      have hmem : event ∈ result.driftEvents := by
        rw [hevents, mem_computeDiff]
        refine ⟨e, (recordById_mem hpost).1, onPlatform_iff.mpr ⟨p, hsucceeded, hp⟩, ?_⟩
        rw [hprior, diffEntity_self]
        exact hevent
      apply hlaw.observations obs _ hplatform
      rw [hobservations]
      exact emitDrift_all rfl (fun _ h => absurd h List.not_mem_nil) hmem hobs
    · rintro id x hx ⟨endpoint, hendpoint, hend⟩
      obtain ⟨e, he, hreads⟩ := (SweepRuntime.agree_enumerate hreports hvalid .edges id).of_held hx
      apply (edge_unmarked hreports hvalid he hreads).mp
      apply hlaw.edges id e he
      refine ⟨endpoint, hendpoint, ?_⟩
      rw [← hend]
      exact endPlatform_eq hreports hvalid (hreads endpoint (endpoint_read hendpoint))
  · intro hnothing saves cache result post cache' hsweep
    obtain ⟨rfl, hevents, hobservations⟩ := sweep_result hvalid hunique hsweep
    constructor
    · intro id e he hp
      obtain ⟨hprior, -, hnot⟩ := (entity_of_silent hreports hsilent hvalid).mp ⟨he, hp⟩
      apply (entity_unmarked hvalid he hp).mpr
      intro hsucceeded
      exact (hnothing.entities hsucceeded id e hprior hp hnot).1
    · rintro id e he ⟨endpoint, hendpoint, hend⟩
      obtain ⟨x, hx, hreads⟩ := (SweepRuntime.agree_enumerate hreports hvalid .edges id).to_held he
      apply (edge_unmarked hreports hvalid he hreads).mpr
      apply hnothing.edges id x hx
      refine ⟨endpoint, hendpoint, ?_⟩
      rw [← hend]
      exact (endPlatform_eq hreports hvalid (hreads endpoint (endpoint_read hendpoint))).symm
    · intro obs hobs hp
      rw [hobservations] at hobs
      obtain ⟨event, hevent, hbuilt⟩ := mem_emitDrift hobs
      rw [hevents, mem_computeDiff] at hevent
      obtain ⟨y, hy, hplatform, hdiff⟩ := hevent
      obtain ⟨q, hq, hyq⟩ := onPlatform_iff.mp hplatform
      have hentity := entity_of_diffEntity hdiff
      obtain rfl : q = p := by
        rw [← hp]
        apply (platform_of_observation hbuilt _).symm
        rw [hentity]
        exact hyq
      have hpostValid := @reconciled_valid _ _ (rt.reconciliation input (rt.enumerate input prior).2) hvalid'
      have hpostUnique := @reconciled_unique _ _
        (rt.reconciliation input (rt.enumerate input prior).2) hvalid'
        hunique'
      obtain ⟨id, hid⟩ := (@ValidGraph.wellFormed _ _ .entities hpostValid y hy).id
      obtain ⟨hprior, hdrift⟩ := unchanged_of_nothingDue henumerated hunreachable hvalid hnothing hyq
        (recordById_of_mem hpostUnique.1 hy hid)
      have hbefore : priorById prior.entities (property (js "id") y) = some y := by
        rw [idOf_eq_some.mp hid, priorById_eq hunique.1]
        exact hprior
      rw [hbefore, diffEntity_self, hdrift hq] at hdiff
      cases hdiff

/-! ### A host that has hung -/

def nasCommands : List JsString :=
  [js "mdcmd status 2>/dev/null", js "cat /var/local/emhttp/disks.ini 2>/dev/null",
    js "cat /var/local/emhttp/shares.ini 2>/dev/null", js "ls /boot/config/shares/*.cfg 2>/dev/null",
    nvidiaSmiCommand, js "find /boot/config/plugins -name \"*.cron\" 2>/dev/null",
    js "ls /etc/cron.d/ 2>/dev/null"]

/-- The connection is open, and all that is asked over it throws. -/
def nasOutage : PlatformRun :=
  ⟨js "nas", js "unraid", none, .ok (), nasCommands.map fun command => ⟨command, .threw⟩⟩

/-- The array that has been seen an hour before -/
def seenArray : GraphDocument := ⟨[.obj nasArray], []⟩

theorem nasOutage_talks (now : JsString) : Talks (fun _ _ => True)
    (unraidEnumerate ⟨js "nas", none, now⟩) nasOutage.log (.ok .none) :=
  .ask trivial (.ask trivial (.ask trivial (.ask trivial (.ask trivial (.ask trivial (.ask trivial
    (.done _)))))))

theorem nasOutage_enumerated : Enumerated laterSeen [nasOutage] unseenSweep := by
  have hregistered : getEnumerator (js "unraid") = some unraidEnumerate := by
    with_unfolding_all rfl
  have hvisits : Visits laterSeen nasOutage (visitOf (.ok .none)) :=
    .enumerated hregistered rfl (nasOutage_talks laterSeen)
  exact .cons ⟨rfl, rfl, hvisits⟩ .nil

theorem nasOutage_unreachable : Unreachable (js "nas") [nasOutage] := by
  intro run hrun _
  obtain rfl := List.mem_singleton.mp hrun
  constructor
  · exact Option.isSome_iff_ne_none.mp (by with_unfolding_all rfl)
  · intro x hx
    obtain ⟨command, -, rfl⟩ := List.mem_map.mp hx
    trivial

theorem seenArray_valid (gone : JsNumber) : ValidGraph (labSweeps gone).isDateTime seenArray := by
  intro part e he
  cases part with
  | entities =>
    obtain rfl := List.mem_singleton.mp he
    with_unfolding_all rfl
  | edges => cases he

theorem seenArray_unique : UniqueGraph seenArray := ⟨List.nodup_singleton _, List.nodup_nil⟩

theorem unreachable_left_alone_nas :
    (∀ saves cache result post cache',
      (labSweeps (.ofNat 1800000)).sweep { unseenSweep with saves } seenArray cache =
          some (result, post, cache') →
        LeavesAlone (labSweeps (.ofNat 1800000)) unseenSweep seenArray post result (js "nas")) ↔
      NothingDue (labSweeps (.ofNat 1800000)) unseenSweep seenArray (js "nas") :=
  unreachable_left_alone _ laterSeen _ _ nasOutage_enumerated _ (seenArray_valid _) seenArray_unique _
    nasOutage_unreachable

/-- The array of a host that answers no command is gone after the sweep. -/
theorem unreachable_gone : ¬ ∀ (rt : SweepRuntime) (now : JsString) (runs : List PlatformRun)
    (input : SweepInput) (prior : GraphDocument) (p : JsString) (cache : DedupCache) (result : SweepResult)
    (post : GraphDocument) (cache' : DedupCache), Enumerated now runs input →
    ValidGraph rt.isDateTime prior → UniqueGraph prior → Unreachable p runs →
    rt.sweep input prior cache = some (result, post, cache') → LeavesAlone rt input prior post result p := by
  intro h
  obtain ⟨result, cache', hsweep, -⟩ :=
    sweep_eq unseenSweep (seenArray_valid (.ofNat 1800000)) seenArray_unique
    ⟨.ofNat 3600000, []⟩
  have hlaw := h _ _ _ _ _ _ _ _ _ _ nasOutage_enumerated (seenArray_valid _) seenArray_unique
    nasOutage_unreachable hsweep
  obtain ⟨e', he', hstatus⟩ := hlaw.entities (js "storage-array:nas") (.obj nasArray)
    (by with_unfolding_all rfl) (by with_unfolding_all rfl)
  have hpost : recordById (js "storage-array:nas") (GraphPart.entities.records
      (reconciled ((labSweeps (.ofNat 1800000)).reconciliation unseenSweep
        ((labSweeps (.ofNat 1800000)).enumerate unseenSweep seenArray).2)
        ((labSweeps (.ofNat 1800000)).enumerate unseenSweep seenArray).1)) =
      some (marked (.obj nasArray) (js "gone")) := by
    with_unfolding_all rfl
  obtain rfl := Option.some.inj (hpost.symm.trans he')
  have hgone : property (js "status") (marked (.obj nasArray) (js "gone")) = .str (js "gone") := by
    with_unfolding_all rfl
  have hactive : property (js "status") (.obj nasArray) = .str (js "active") := by
    with_unfolding_all rfl
  rw [hgone, hactive] at hstatus
  exact absurd (JsValue.str.inj hstatus) (by decide)

end Homelab
