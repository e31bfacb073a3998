import Homelab.SweepSteps

/-! The status machine of the entities: what each sweep of a run does to the statuses, and how the drift
that it reports corresponds to them. -/
namespace Homelab
open Js Locked

variable {rt : SweepRuntime} {input : SweepInput} {prior post doc : GraphDocument} {id : JsString}
  {records : List JsValue}

/-! ### Reports of drift -/

def isGoneEvent (id : JsString) : DriftEvent → Bool
  | .entityGone entity => hasId id entity
  | _ => false

/-- The reports that the entity of an id is gone. -/
def goneEvents (id : JsString) (events : List DriftEvent) : ℕ := events.countP (isGoneEvent id)

theorem goneEvents_append (xs ys : List DriftEvent) :
    goneEvents id (xs ++ ys) = goneEvents id xs + goneEvents id ys := List.countP_append

theorem goneEvents_diffEntity (before : Option JsValue) (e : JsValue) :
    goneEvents id (diffEntity before e) =
      if hasId id e && hasStatus (js "gone") e && before.any fun x => !hasStatus (js "gone") x
        then 1 else 0 := by
  cases before with
  | none =>
    rw [Option.any_none, Bool.and_false]
    rfl
  | some x =>
    have hreplica : goneEvents id (replicaDrift e) = 0 := by
      rw [replicaDrift]
      split
      · split_ifs <;> rfl
      · rfl
    have himage : goneEvents id (imageDrift x e) = 0 := by
      rw [imageDrift]
      split
      · split_ifs <;> rfl
      · rfl
    rw [diffEntity, goneEvents_append, goneEvents_append, hreplica, himage, goneDrift, Option.any_some,
      Bool.and_assoc]
    by_cases hgone : (hasStatus (js "gone") e && !hasStatus (js "gone") x) = true
    · rw [if_pos hgone, hgone, Bool.and_true, goneEvents, List.countP_singleton]
      rfl
    · rw [if_neg hgone, Bool.eq_false_iff.mpr hgone, Bool.and_false]
      rfl

/-- The entity is reported as gone. -/
def reportedGone (before : List JsValue) (succeeded : List JsString) (e : JsValue) : Bool :=
  onPlatform succeeded e && hasStatus (js "gone") e &&
    (priorById before (property (js "id") e)).any fun x => !hasStatus (js "gone") x

/-- Ids are unique, so there is one report at most. -/
theorem goneEvents_computeDiff (before : List JsValue) (succeeded : List JsString)
    (hunique : UniqueIds records) : goneEvents id (computeDiff before records succeeded) =
      if (recordById id records).any (reportedGone before succeeded) then 1 else 0 := by
  rw [computeDiff]
  induction records with
  | nil => rfl
  | cons e es ih =>
    have hrest := ih (List.nodup_cons.mp hunique).2
    have hfirst : goneEvents id (if onPlatform succeeded e = true then
        diffEntity (priorById before (property (js "id") e)) e else []) =
          if hasId id e && reportedGone before succeeded e then 1 else 0 := by
      by_cases hplatform : onPlatform succeeded e = true
      · rw [if_pos hplatform, goneEvents_diffEntity, reportedGone, hplatform, Bool.true_and, Bool.and_assoc]
      · rw [if_neg hplatform, reportedGone, Bool.eq_false_iff.mpr hplatform, Bool.false_and, Bool.false_and,
          Bool.and_false]
        rfl
    rw [List.flatMap_cons, goneEvents_append, hfirst, hrest]
    by_cases hid : idOf e = some id
    · have hnone : recordById id es = none := by
        rw [recordById_eq_none, ← hid]
        exact (List.nodup_cons.mp hunique).1
      rw [recordById_cons_self hid, hnone, hasId_iff.mpr hid, Bool.true_and, Option.any_some]
      rfl
    · have hother : hasId id e = false := by
        rw [Bool.eq_false_iff]
        exact fun h => hid (hasId_iff.mp h)
      rw [recordById_cons_ne hid, hother, Bool.false_and]
      exact Nat.zero_add _

theorem priorById_eq (hunique : UniqueIds records) (id : JsString) :
    priorById records (.str id) = recordById id records := by
  have hreverse : UniqueIds records.reverse := by
    rw [UniqueIds, Records.Unique, List.map_reverse, List.nodup_reverse]
    exact hunique
  change recordById id records.reverse = recordById id records
  cases hfound : recordById id records.reverse with
  | none =>
    rw [eq_comm, recordById_eq_none]
    rw [recordById_eq_none, List.map_reverse, List.mem_reverse] at hfound
    exact hfound
  | some e =>
    obtain ⟨he, hid⟩ := recordById_mem hfound
    exact (recordById_of_mem hunique (List.mem_reverse.mp he) hid).symm

/-- The entity had another status than `gone` and has it now. -/
def BecameGone (before after : GraphDocument) (id : JsString) : Prop :=
  ∃ e e', recordById id before.entities = some e ∧ hasStatus (js "gone") e = false ∧
    recordById id after.entities = some e' ∧ hasStatus (js "gone") e' = true

/-! ### The law of one sweep -/

/-- What the platforms report are entities of theirs, active and seen since the sweep has begun. -/
def FreshReports (rt : SweepRuntime) (input : SweepInput) : Prop :=
  ∀ p record, input.Reports .entities p record →
    getOwn (js "platformId") record = .str p ∧ getOwn (js "status") record = .str (js "active") ∧
      ∃ seen seenMs sweepMs, getOwn (js "last_seen") record = .str seen ∧
        rt.dateMs seen = some seenMs ∧ rt.dateMs input.sweepAt = some sweepMs ∧ sweepMs ≤ seenMs

/-- A platform of the entity has been enumerated. -/
def SweepInput.covers (input : SweepInput) (e : JsValue) : Prop :=
  ∃ p, input.succeeded p ∧ property (js "platformId") e = .str p

/-- What a reconciliation may do to an entity: nothing, `active` to `stale`, or `active` or `stale` to
`gone`, the last two when its platform has been enumerated and its age has reached the threshold. -/
structure Degrades (rt : SweepRuntime) (input : SweepInput) (R : Reconciliation) (e e' : JsValue) :
    Prop where
  covered : input.covers e
  status : (hasStatus (js "active") e = true ∧ hasStatus (js "stale") e' = true ∧
      rt.thresholds.stalenessThresholdMs.le (R.age e) = true) ∨
    ((hasStatus (js "active") e = true ∨ hasStatus (js "stale") e = true) ∧
      hasStatus (js "gone") e' = true ∧ rt.thresholds.goneThresholdMs.le (R.age e) = true)

/-- What a sweep does, from the graph before it to the graph after it. -/
structure SweepLaw (rt : SweepRuntime) (input : SweepInput) (prior post : GraphDocument)
    (result : SweepResult) : Prop where
  enumeration : ∀ id e, recordById id prior.entities = some e →
    ∃ e', recordById id (rt.enumerate input prior).1.entities = some e' ∧
      (e' = e ∨ hasStatus (js "active") e' = true ∧
        ∃ p record, input.Reports .entities p record ∧ getOwn (js "id") record = .str id)
  addition : ∀ id e, recordById id prior.entities = none →
    recordById id (rt.enumerate input prior).1.entities = some e → hasStatus (js "active") e = true
  reconciliation : ∀ id e, recordById id (rt.enumerate input prior).1.entities = some e →
    ∃ e', recordById id post.entities = some e' ∧
      (e' = e ∨ Degrades rt input (rt.reconciliation input (rt.enumerate input prior).2) e e')
  due : ∀ id e, recordById id post.entities = some e → input.covers e →
    rt.thresholds.goneThresholdMs.le
      ((rt.reconciliation input (rt.enumerate input prior).2).age e) = true →
    hasStatus (js "gone") e = true
  spared : ∀ id e, recordById id (rt.enumerate input prior).1.entities = some e →
    rt.thresholds.goneThresholdMs.le
      ((rt.reconciliation input (rt.enumerate input prior).2).age e) = false →
    rt.thresholds.stalenessThresholdMs.le
      ((rt.reconciliation input (rt.enumerate input prior).2).age e) = false →
    recordById id post.entities = some e
  kept : ∀ (part : GraphPart) id e, recordById id (part.records prior) = some e →
    ∃ e', recordById id (part.records post) = some e'
  frame : ∀ (part : GraphPart) id e, recordById id (part.records (rt.enumerate input prior).1) = some e →
    ∃ e', recordById id (part.records post) = some e' ∧
      ∀ k, k ≠ js "status" → property k e' = property k e
  events : ∀ id, goneEvents id result.driftEvents ≤ 1 ∧
    (goneEvents id result.driftEvents = 1 ↔ BecameGone prior post id)
  /-- Entities that have just been seen do not become gone unless the threshold is zero or less. -/
  transitions : rt.thresholds.goneThresholdMs.le (.ofScaledInt 0 0) = false →
    ∀ id, goneEvents id result.driftEvents = 1 ↔ BecameGone (rt.enumerate input prior).1 post id

theorem hasStatus_of_property {e : JsValue} {status : JsString}
    (h : property (js "status") e = .str status) (status' : JsString) :
    hasStatus status' e = decide (status = status') := by
  rw [hasStatus, h]
  rfl

/-- An entity has one status. -/
theorem hasStatus_inj {e : JsValue} {status status' : JsString} (h : hasStatus status e = true)
    (hne : status ≠ status') : hasStatus status' e = false := by
  rw [hasStatus] at h ⊢
  cases hproperty : property (js "status") e with
  | str s =>
    rw [hproperty] at h
    obtain rfl : s = status := of_decide_eq_true h
    exact decide_eq_false hne
  | _ => rfl

theorem WellFormed.statuses {e : JsValue} (h : WellFormed e) :
    hasStatus (js "active") e = true ∨ hasStatus (js "stale") e = true ∨ hasStatus (js "gone") e = true := by
  obtain ⟨s, hs, hmem⟩ := h.status
  rw [hasStatus_of_property hs, hasStatus_of_property hs, hasStatus_of_property hs]
  simpa using hmem

theorem hasStatus_marked {e : JsValue} (he : WellFormed e) (status : JsString) :
    hasStatus status (marked e status) = true := by
  have hstatus : property (js "status") (marked e status) = .str status :=
    (property_marked he.object status _).trans (if_pos rfl)
  rw [hasStatus_of_property hstatus]
  exact decide_eq_true rfl

theorem onPlatform_iff {rt : SweepRuntime} {input : SweepInput} {prior : GraphDocument} {e : JsValue} :
    onPlatform (succeededPlatformIds (rt.enumerate input prior).2) e = true ↔ input.covers e := by
  rw [onPlatform]
  cases hp : property (js "platformId") e with
  | str p =>
    rw [decide_eq_true_eq, rt.mem_succeeded]
    constructor
    · exact fun h => ⟨p, h, hp⟩
    · rintro ⟨q, hq, hpq⟩
      cases hp.symm.trans hpq
      exact hq
  | _ =>
    constructor
    · intro h
      cases h
    · rintro ⟨q, -, hpq⟩
      cases hp.symm.trans hpq

theorem age_congr {R : Reconciliation} {e e' : JsValue}
    (h : property (js "last_seen") e' = property (js "last_seen") e) : R.age e' = R.age e := by
  rw [Reconciliation.age, Reconciliation.age, Reconciliation.lastSeenMs, Reconciliation.lastSeenMs, h]

theorem covers_congr {e e' : JsValue}
    (h : property (js "platformId") e' = property (js "platformId") e) :
    input.covers e' ↔ input.covers e := by
  rw [SweepInput.covers, SweepInput.covers, h]

/-- What a sweep comes to, from a graph that is valid and has unique ids. -/
theorem sweep_eq (input : SweepInput) (hvalid : ValidGraph rt.isDateTime prior)
    (hunique : UniqueGraph prior) (cache : DedupCache) :
    ∃ result cache', rt.sweep input prior cache = some (result,
        reconciled (rt.reconciliation input (rt.enumerate input prior).2) (rt.enumerate input prior).1,
        cache') ∧
      result.driftEvents = computeDiff prior.entities (reconciled
        (rt.reconciliation input (rt.enumerate input prior).2) (rt.enumerate input prior).1).entities
        (succeededPlatformIds (rt.enumerate input prior).2) := by
  have henum := rt.enumerates input prior
  have hreconcile := reconcile_eq (R := rt.reconciliation input (rt.enumerate input prior).2)
    (henum.valid hvalid) (henum.unique hunique)
  rw [SweepRuntime.sweep]
  dsimp only
  rw [hreconcile]
  exact ⟨_, _, rfl, rfl⟩

theorem follows_reported (hfresh : FreshReports rt input) (id : JsString) :
    recordById id (rt.enumerate input prior).1.entities = recordById id prior.entities ∨
      ∃ p record e, input.Reports .entities p record ∧ getOwn (js "id") record = .str id ∧
        recordById id (rt.enumerate input prior).1.entities = some e ∧ hasStatus (js "active") e = true ∧
        input.covers e ∧ ∃ seenMs sweepMs, rt.dateMs input.sweepAt = some sweepMs ∧ sweepMs ≤ seenMs ∧
          (rt.reconciliation input (rt.enumerate input prior).2).lastSeenMs e = some seenMs := by
  rcases (rt.enumerates input prior).follows .entities id with
    hsame | ⟨record, hrecord, hid, e, he, hproperties⟩
  · exact .inl hsame
  · obtain ⟨p, hreports⟩ := hrecord
    obtain ⟨hplatform, hactive, seen, seenMs, sweepMs, hseen, hseenMs, hsweepMs, hle⟩ :=
      hfresh p record hreports
    have hdefined {k s : JsString} (h : getOwn k record = .str s) : property k e = .str s := by
      rw [hproperties k, h]
      rw [h]
      exact JsValue.noConfusion
    refine .inr ⟨p, record, e, hreports, hid, he, ?_, ?_, seenMs, sweepMs, hsweepMs, hle, ?_⟩
    · rw [hasStatus_of_property (hdefined hactive)]
      exact decide_eq_true rfl
    · exact ⟨p, hreports.succeeded, hdefined hplatform⟩
    · rw [Reconciliation.lastSeenMs, hdefined hseen]
      exact hseenMs

/-! ### What a reconciliation does to one entity -/

section Judged
variable {R : Reconciliation} {e : JsValue}

/-- It degrades an entity, or leaves it as it is. -/
theorem judged_degrades (hthresholds : R.thresholds = rt.thresholds)
    (hplatform : onPlatform R.succeeded e = true ↔ input.covers e) (he : WellFormed e) :
    judged R.entityVerdict e = e ∨ Degrades rt input R e (judged R.entityVerdict e) := by
  rw [judged]
  cases hverdict : R.entityVerdict e with
  | none => exact .inl rfl
  | some status =>
    obtain ⟨honPlatform, hgone, hdegraded⟩ := Reconciliation.entityVerdict_cases hverdict
    have hcovers : input.covers e := hplatform.mp honPlatform
    have hmarked := hasStatus_marked he status
    rcases Reconciliation.degraded_cases hdegraded with ⟨rfl, hage⟩ | ⟨rfl, hage, hactive⟩
    · refine .inr ⟨hcovers, .inr ⟨?_, hmarked, hthresholds ▸ hage⟩⟩
      rcases he.statuses with hs | hs | hs
      · exact .inl hs
      · exact .inr hs
      · rw [hgone] at hs
        cases hs
    · exact .inr ⟨hcovers, .inl ⟨hactive, hmarked, hthresholds ▸ hage⟩⟩

/-- An entity whose age has reached the threshold ends as `gone`. -/
theorem judged_due (hplatform : onPlatform R.succeeded e = true) (he : WellFormed e)
    (hage : R.thresholds.goneThresholdMs.le (R.age e) = true) :
    hasStatus (js "gone") (judged R.entityVerdict e) = true := by
  by_cases hgone : hasStatus (js "gone") e = true
  · have hnone : R.entityVerdict e = none := by
      rw [Reconciliation.entityVerdict, if_pos hgone, ite_self]
    rw [judged, hnone]
    exact hgone
  · have hverdict : R.entityVerdict e = some (js "gone") := by
      rw [Reconciliation.entityVerdict, hplatform, Bool.not_true, if_neg Bool.false_ne_true, if_neg hgone,
        Reconciliation.degraded]
      exact if_pos hage
    rw [judged, hverdict]
    exact hasStatus_marked he _

/-- An entity that is younger than both thresholds stays as it is. -/
theorem judged_spared (hgone : R.thresholds.goneThresholdMs.le (R.age e) = false)
    (hstale : R.thresholds.stalenessThresholdMs.le (R.age e) = false) : judged R.entityVerdict e = e := by
  have hnone : R.entityVerdict e = none := by
    cases hverdict : R.entityVerdict e with
    | none => rfl
    | some status =>
      obtain ⟨-, -, hdegraded⟩ := Reconciliation.entityVerdict_cases hverdict
      rcases Reconciliation.degraded_cases hdegraded with ⟨-, hage⟩ | ⟨-, hage, -⟩
      · cases hgone.symm.trans hage
      · cases hstale.symm.trans hage
  rw [judged, hnone]

/-- An entity that has been seen since the sweep has begun is too young for a threshold above zero. -/
theorem age_seen {threshold : JsNumber} {seenMs sweepMs : ℤ}
    (hpositive : threshold.le (.ofScaledInt 0 0) = false)
    (hsweep : R.sweepMs = some sweepMs) (hseen : R.lastSeenMs e = some seenMs) (hle : sweepMs ≤ seenMs) :
    threshold.le (R.age e) = false := by
  rw [Reconciliation.age, hseen, hsweep, JsNumber.dateDiff_some, Bool.eq_false_iff]
  intro hold
  have hzero := JsNumber.le_ofScaledInt_mono hold (n := 0) (by omega)
  rw [hpositive] at hzero
  cases hzero

end Judged

/-! ### What a sweep does -/

section Swept
variable {current : GraphDocument} {R : Reconciliation}

/-- An entity that becomes gone is one of a platform that has been enumerated. -/
theorem covered_of_becameGone (hthresholds : R.thresholds = rt.thresholds)
    (hplatform : ∀ e, onPlatform R.succeeded e = true ↔ input.covers e)
    (hvalid : ValidGraph rt.isDateTime current)
    (hfollows : recordById id current.entities = recordById id prior.entities ∨
      ∃ e, recordById id current.entities = some e ∧ input.covers e)
    (hbecame : BecameGone prior (reconciled R current) id) :
    ∃ e', recordById id (reconciled R current).entities = some e' ∧ hasStatus (js "gone") e' = true ∧
      input.covers e' := by
  obtain ⟨e, e', he, hnot, he', hgone⟩ := hbecame
  refine ⟨e', he', hgone, ?_⟩
  have hrecord := recordById_reconciled R hvalid .entities id
  obtain ⟨x, hx, hxe'⟩ := Option.map_eq_some_iff.mp (hrecord.symm.trans he')
  have hwf : WellFormed x := hvalid.wellFormed
    (show x ∈ GraphPart.entities.records current from (recordById_mem hx).1)
  have hsame : property (js "platformId") e' = property (js "platformId") x := by
    rw [← hxe']
    exact property_judged hwf (by decide)
  rw [covers_congr hsame]
  rcases judged_degrades hthresholds (hplatform x) hwf with hunchanged | hdegrades
  · rcases hfollows with hprior | ⟨y, hy, hcovers⟩
    · -- as it was before the sweep, it is not gone
      have hxe : x = e := Option.some.inj (hx.symm.trans (hprior.trans he))
      have hkept : e' = x := hxe'.symm.trans hunchanged
      rw [hkept, hxe, hnot] at hgone
      cases hgone
    · obtain rfl : x = y := Option.some.inj (hx.symm.trans hy)
      exact hcovers
  · exact hdegrades.covered

/-- The reports are of the entities that have become gone, as these are all on platforms that the drift
is looked for on. -/
theorem goneEvents_iff (hplatform : ∀ e, onPlatform R.succeeded e = true ↔ input.covers e)
    (hunique : UniqueIds prior.entities) (hpost : UniqueIds post.entities)
    (hcovered : BecameGone prior post id → ∃ e', recordById id post.entities = some e' ∧
      hasStatus (js "gone") e' = true ∧ input.covers e') :
    goneEvents id (computeDiff prior.entities post.entities R.succeeded) ≤ 1 ∧
      (goneEvents id (computeDiff prior.entities post.entities R.succeeded) = 1 ↔
        BecameGone prior post id) := by
  have hreported {e' : JsValue} (he' : recordById id post.entities = some e') :
      reportedGone prior.entities R.succeeded e' = true ↔
        input.covers e' ∧ hasStatus (js "gone") e' = true ∧
          ∃ e, recordById id prior.entities = some e ∧ hasStatus (js "gone") e = false := by
    rw [reportedGone, idOf_eq_some.mp (recordById_mem he').2, priorById_eq hunique, Bool.and_eq_true,
      Bool.and_eq_true, hplatform, Option.any_eq_true, and_assoc]
    simp
  have hiff : (recordById id post.entities).any (reportedGone prior.entities R.succeeded) = true ↔
      BecameGone prior post id := by
    rw [Option.any_eq_true]
    constructor
    · rintro ⟨e', he', hrep⟩
      obtain ⟨-, hgone, e, he, hnot⟩ := (hreported he').mp hrep
      exact ⟨e, e', he, hnot, he', hgone⟩
    · intro hbecame
      obtain ⟨e', he', hgone, hcovers⟩ := hcovered hbecame
      obtain ⟨e, -, he, hnot, -, -⟩ := hbecame
      exact ⟨e', he', (hreported he').mpr ⟨hcovers, hgone, e, he, hnot⟩⟩
  rw [goneEvents_computeDiff _ _ hpost, ← hiff]
  split_ifs with hany
  · exact ⟨le_rfl, fun _ => hany, fun _ => rfl⟩
  · exact ⟨Nat.zero_le _, fun h => (by cases h), fun h => absurd h hany⟩

/-- With a threshold above zero it makes no difference whether an entity was not gone before the sweep or
is not gone after the enumeration: the ones that differ have been seen and do not become gone. -/
theorem becameGone_current (hthresholds : R.thresholds = rt.thresholds)
    (hplatform : ∀ e, onPlatform R.succeeded e = true ↔ input.covers e)
    (hvalid : ValidGraph rt.isDateTime current)
    (hfollows : recordById id current.entities = recordById id prior.entities ∨
      ∃ e, recordById id current.entities = some e ∧ hasStatus (js "active") e = true ∧
        R.thresholds.goneThresholdMs.le (R.age e) = false) :
    BecameGone prior (reconciled R current) id ↔ BecameGone current (reconciled R current) id := by
  constructor
  · rintro ⟨e, e', he, hnot, he', hgone⟩
    rcases hfollows with hsame | ⟨x, hx, hactive, -⟩
    · exact ⟨e, e', hsame.trans he, hnot, he', hgone⟩
    · exact ⟨x, e', hx, hasStatus_inj hactive (by decide), he', hgone⟩
  · rintro ⟨x, e', hx, hnot, he', hgone⟩
    rcases hfollows with hsame | ⟨y, hy, -, hyoung⟩
    · exact ⟨x, e', hsame.symm.trans hx, hnot, he', hgone⟩
    · obtain rfl : x = y := Option.some.inj (hx.symm.trans hy)
      have hrecord := recordById_reconciled R hvalid .entities id
      have hjudged : judged R.entityVerdict x = e' := by
        apply Option.some.inj
        rw [← he']
        exact (hrecord.trans (congrArg (Option.map _) hx)).symm
      have hwf : WellFormed x := hvalid.wellFormed
        (show x ∈ GraphPart.entities.records current from (recordById_mem hx).1)
      rcases judged_degrades hthresholds (hplatform x) hwf with hkept | ⟨-, hstatus⟩
      · rw [← hjudged, hkept, hnot] at hgone
        cases hgone
      · rw [hjudged, ← hthresholds] at hstatus
        rcases hstatus with ⟨-, hstale, -⟩ | ⟨-, -, hage⟩
        · rw [hasStatus_inj hstale (by decide)] at hgone
          cases hgone
        · rw [hyoung] at hage
          cases hage

end Swept

/-- A sweep keeps to the law. -/
theorem sweepLaw (hfresh : FreshReports rt input) (hvalid : ValidGraph rt.isDateTime prior)
    (hunique : UniqueGraph prior) {result : SweepResult}
    (hevents : result.driftEvents = computeDiff prior.entities (reconciled
        (rt.reconciliation input (rt.enumerate input prior).2) (rt.enumerate input prior).1).entities
        (succeededPlatformIds (rt.enumerate input prior).2)) :
    SweepLaw rt input prior (reconciled (rt.reconciliation input (rt.enumerate input prior).2)
      (rt.enumerate input prior).1) result := by
  have henum := rt.enumerates input prior
  have hfollows := @follows_reported rt input prior hfresh
  have hvalid' := henum.valid hvalid
  have hpostUnique := reconciled_unique
    (R := rt.reconciliation input (rt.enumerate input prior).2) hvalid' (henum.unique hunique)
  have hplatform (e : JsValue) := @onPlatform_iff rt input prior e
  set current := (rt.enumerate input prior).1 with hcurrent
  set R := rt.reconciliation input (rt.enumerate input prior).2 with hR
  have hthresholds : R.thresholds = rt.thresholds := rfl
  have hform (part : GraphPart) {e : JsValue} (he : e ∈ part.records current) : WellFormed e :=
    hvalid'.wellFormed he
  have hentities (id : JsString) : recordById id (reconciled R current).entities =
      (recordById id current.entities).map (judged R.entityVerdict) :=
    recordById_reconciled R hvalid' .entities id
  have hframe (part : GraphPart) (id : JsString) (e : JsValue)
      (he : recordById id (part.records current) = some e) :
      ∃ e', recordById id (part.records (reconciled R current)) = some e' ∧
        ∀ k, k ≠ js "status" → property k e' = property k e := by
    have hwf := hform part (recordById_mem he).1
    refine ⟨_, (recordById_reconciled R hvalid' part id).trans (congrArg (Option.map _) he), ?_⟩
    exact fun k hk => property_judged hwf hk
  -- an entity is reported once if it has become gone, and never otherwise
  have hevent (id : JsString) : goneEvents id result.driftEvents ≤ 1 ∧
      (goneEvents id result.driftEvents = 1 ↔ BecameGone prior (reconciled R current) id) := by
    rw [hevents]
    apply goneEvents_iff (R := R) hplatform hunique.1 hpostUnique.1
    -- what follows a report is active, so it has not become gone
    apply covered_of_becameGone hthresholds hplatform hvalid'
    rcases hfollows id with hsame | ⟨p, record, e, -, -, he, -, hcovers, -⟩
    · exact .inl hsame
    · exact .inr ⟨e, he, hcovers⟩
  constructor
  · intro id e he
    rcases hfollows id with hsame | ⟨p, record, e', hreports, hid, he', hactive, -⟩
    · exact ⟨e, hsame.trans he, .inl rfl⟩
    · exact ⟨e', he', .inr ⟨hactive, p, record, hreports, hid⟩⟩
  · intro id e hnone he
    rcases hfollows id with hsame | ⟨p, record, e', -, -, he', hactive, -⟩
    · rw [hsame, hnone] at he
      cases he
    · obtain rfl : e = e' := Option.some.inj (he.symm.trans he')
      exact hactive
  · intro id e he
    refine ⟨_, (hentities id).trans (congrArg (Option.map _) he), ?_⟩
    exact judged_degrades hthresholds (hplatform e) (hform .entities (recordById_mem he).1)
  · intro id e' he' hcovers hage
    rw [hentities] at he'
    obtain ⟨e, he, rfl⟩ := Option.map_eq_some_iff.mp he'
    have hwf := hform .entities (recordById_mem he).1
    rw [covers_congr (property_judged hwf (by decide))] at hcovers
    rw [age_congr (property_judged hwf (by decide))] at hage
    exact judged_due ((hplatform e).mpr hcovers) hwf hage
  · intro id e he hgone hstale
    rw [hentities, he, Option.map_some, judged_spared hgone hstale]
  · intro part id e he
    obtain ⟨x, hx⟩ := (henum.follows part).kept he
    obtain ⟨e', he', -⟩ := hframe part id x hx
    exact ⟨e', he'⟩
  · exact hframe
  · exact hevent
  · intro hpositive id
    rw [(hevent id).2]
    apply becameGone_current hthresholds hplatform hvalid'
    rcases hfollows id with
      hsame | ⟨p, record, e, -, -, he, hactive, -, seenMs, sweepMs, hsweep, hle, hseen⟩
    · exact .inl hsame
    · exact .inr ⟨e, he, hactive, age_seen hpositive hsweep hseen hle⟩

/-! ### Runs of sweeps -/

/-- The sweeps of a run all come to their end, and each keeps to the law. -/
def SweepsLawful (rt : SweepRuntime) : List SweepInput → GraphDocument → DedupCache → Prop
  | [], _, _ => True
  | input :: inputs, prior, cache => ∃ result post cache',
      rt.sweep input prior cache = some (result, post, cache') ∧ SweepLaw rt input prior post result ∧
        SweepsLawful rt inputs post cache'

/-- Every run of sweeps on a graph with no other writer: entities go from `active` to `stale` and from
either to `gone` by the reconciliation alone, and back to `active` when they are reported; what is due is
gone; nothing is deleted; and the entities reported as gone are those that were not gone before the
sweep and are so after it. -/
theorem sweeps_lawful (rt : SweepRuntime) (inputs : List SweepInput)
    (hfresh : ∀ input ∈ inputs, FreshReports rt input) (doc : GraphDocument)
    (hvalid : ValidGraph rt.isDateTime doc) (hunique : UniqueGraph doc) (cache : DedupCache) :
    SweepsLawful rt inputs doc cache := by
  induction inputs generalizing doc cache with
  | nil => exact trivial
  | cons input inputs ih =>
    obtain ⟨hhead, htail⟩ := List.forall_mem_cons.mp hfresh
    obtain ⟨result, cache', hsweep, hevents⟩ := sweep_eq input hvalid hunique cache
    have henum := rt.enumerates input doc
    have hvalid' := henum.valid hvalid
    refine ⟨result, _, cache', hsweep, sweepLaw hhead hvalid hunique hevents, ?_⟩
    exact ih htail _ (reconciled_valid hvalid') (reconciled_unique hvalid' (henum.unique hunique)) cache'

/-! ### Sweeps of a lab -/

def labSweeps (gone : JsNumber) : SweepRuntime where
  isDateTime _ := true
  dateMs s := if s = nasSeen then some 0 else some 3600000
  thresholds := ⟨.ofNat 300000, gone⟩

def nasArray : Fields :=
  [(js "id", .str (js "storage-array:nas")), (js "kind", .str (js "storage-array")),
    (js "name", .str (js "nas array")), (js "attributes", .obj []), (js "source", .str (js "unraid")),
    (js "platformId", .str (js "nas")), (js "discovered_at", .str nasSeen),
    (js "last_seen", .str nasSeen), (js "status", .str (js "active"))]

def nasVisit (entities : List Fields) : PlatformVisit := ⟨js "nas", js "unraid", .enumerated entities []⟩

/-- The array is seen, and an hour later it is not. -/
def seenSweep : SweepInput := ⟨nasSeen, none, [nasVisit [nasArray]], fun _ => true⟩

def laterSeen : JsString := js "2026-05-01T01:00:00.000Z"

def unseenSweep : SweepInput := ⟨laterSeen, none, [nasVisit []], fun _ => true⟩

theorem seenSweep_fresh (gone : JsNumber) : FreshReports (labSweeps gone) seenSweep := by
  rintro p record ⟨q, hq, -, rfl, hrecord⟩
  obtain rfl := List.mem_singleton.mp hq
  obtain rfl := List.mem_singleton.mp hrecord
  have hseen : (labSweeps gone).dateMs nasSeen = some 0 := by
    change (if nasSeen = nasSeen then some (0 : ℤ) else some 3600000) = some 0
    exact if_pos rfl
  exact ⟨rfl, rfl, nasSeen, 0, 0, rfl, hseen, hseen, le_rfl⟩

theorem unseenSweep_fresh (gone : JsNumber) : FreshReports (labSweeps gone) unseenSweep := by
  rintro p record ⟨q, hq, -, rfl, hrecord⟩
  obtain rfl := List.mem_singleton.mp hq
  cases hrecord

theorem emptyGraph_valid (isDateTime : JsString → Bool) : ValidGraph isDateTime ⟨[], []⟩ := by
  intro part e he
  cases part <;> cases he

theorem sweeps_lawful_nas :
    SweepsLawful (labSweeps (.ofNat 1800000)) [seenSweep, unseenSweep] ⟨[], []⟩ ⟨.ofNat 3600000, []⟩ := by
  apply sweeps_lawful
  · intro input hinput
    rcases List.mem_cons.mp hinput with rfl | hinput
    · exact seenSweep_fresh _
    · obtain rfl := List.mem_singleton.mp hinput
      exact unseenSweep_fresh _
  · exact emptyGraph_valid _
  · exact ⟨List.nodup_nil, List.nodup_nil⟩

/-- With a threshold of zero a new entity is gone in the sweep that has found it, and the sweep
reports it as added only. -/
theorem gone_unreported : ¬ ∀ (rt : SweepRuntime) (input : SweepInput) (prior : GraphDocument)
    (cache : DedupCache) (result : SweepResult) (post : GraphDocument) (cache' : DedupCache),
    FreshReports rt input → ValidGraph rt.isDateTime prior → UniqueGraph prior →
    rt.sweep input prior cache = some (result, post, cache') →
    ∀ id, goneEvents id result.driftEvents = 1 ↔ BecameGone (rt.enumerate input prior).1 post id := by
  intro h
  have hvalid := emptyGraph_valid (labSweeps (.ofNat 0)).isDateTime
  have hunique : UniqueGraph ⟨[], []⟩ := ⟨List.nodup_nil, List.nodup_nil⟩
  have hfresh := seenSweep_fresh (.ofNat 0)
  obtain ⟨result, cache', hsweep, hevents⟩ := sweep_eq seenSweep hvalid hunique ⟨.ofNat 0, []⟩
  have hlaw := sweepLaw hfresh hvalid hunique hevents
  have hgone := h _ _ _ _ _ _ _ hfresh hvalid hunique hsweep (js "storage-array:nas")
  rw [(hlaw.events _).2] at hgone
  have hbecame : BecameGone ((labSweeps (.ofNat 0)).enumerate seenSweep ⟨[], []⟩).1
      (reconciled ((labSweeps (.ofNat 0)).reconciliation seenSweep
        ((labSweeps (.ofNat 0)).enumerate seenSweep ⟨[], []⟩).2)
        ((labSweeps (.ofNat 0)).enumerate seenSweep ⟨[], []⟩).1) (js "storage-array:nas") := by
    refine ⟨.obj nasArray, marked (.obj nasArray) (js "gone"), ?_, ?_, ?_, ?_⟩ <;> with_unfolding_all rfl
  obtain ⟨e, _, he, _⟩ := hgone.mpr hbecame
  cases he

end Homelab
