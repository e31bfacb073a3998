import Homelab.ClassifySightings

/-! The drift that a sweep reports, beside what it has observed. -/
namespace Homelab
open Js Locked

variable {rt : SweepRuntime} {input : SweepInput} {prior post : GraphDocument} {part : GraphPart}
  {id now : JsString} {e x y : JsValue} {running desired : JsNumber} {previous current : JsString}

/-! ### Faults of an entity -/

/-- Fewer replicas run than are desired. -/
def TooFew (running desired : JsNumber) (e : JsValue) : Prop :=
  attributeOf (js "replicas_running") e = .num running ∧
    attributeOf (js "replicas_desired") e = .num desired ∧ running.lt desired = true

/-- The image is another one than it was. -/
def OtherImage (previous current : JsString) (before e : JsValue) : Prop :=
  attributeOf (js "image") e = .str current ∧ attributeOf (js "image") before = .str previous ∧
    current ≠ previous

/-- There is such an event about the entity of the id. -/
def ReportsDrift (events : List DriftEvent) (event : JsValue → DriftEvent) (id : JsString) : Prop :=
  ∃ entity, idOf entity = some id ∧ event entity ∈ events

/-- What the sweep has observed of an entity: the last accepted report of it -/
def SweepRuntime.observed (rt : SweepRuntime) (input : SweepInput) (id : JsString) : Option Fields :=
  lastReport rt.isDateTime .entities id (reported input.visited .entities)

/-- The drift of a sweep is that of what it has observed, and of the graph before it. -/
structure ObservedDrift (rt : SweepRuntime) (input : SweepInput) (prior : GraphDocument)
    (events : List DriftEvent) : Prop where
  mismatch : ∀ id running desired, ReportsDrift events (.replicaMismatch · running desired) id ↔
    ∃ record, rt.observed input id = some record ∧ TooFew running desired (.obj record)
  image : ∀ id previous current, ReportsDrift events (.imageChanged · previous current) id ↔
    ∃ record before, rt.observed input id = some record ∧ recordById id prior.entities = some before ∧
      OtherImage previous current before (.obj record)

/-- Where fewer replicas run than are desired, the entity has been observed and was known before, or it
has not been observed and its platform has not been enumerated. -/
structure ObservesTooFew (rt : SweepRuntime) (input : SweepInput) (prior : GraphDocument) : Prop where
  known : ∀ id record running desired, rt.observed input id = some record →
    TooFew running desired (.obj record) → recordById id prior.entities ≠ none
  seen : ∀ id e running desired, recordById id prior.entities = some e → TooFew running desired e →
    rt.observed input id = none → ¬ input.covers e

/-! ### The events of a diff -/

theorem mem_goneDrift {before : JsValue} {event : DriftEvent} (h : event ∈ goneDrift before y) :
    event = .entityGone y := by
  rw [goneDrift] at h
  split_ifs at h
  · exact List.mem_singleton.mp h
  · cases h

theorem mem_replicaDrift {event : DriftEvent} :
    event ∈ replicaDrift y ↔ ∃ running desired, TooFew running desired y ∧
      event = .replicaMismatch y running desired := by
  rw [replicaDrift]
  constructor
  · intro h
    split at h
    · rename_i running desired hrunning hdesired
      split_ifs at h with hlt
      · exact ⟨running, desired, ⟨hrunning, hdesired, hlt⟩, List.mem_singleton.mp h⟩
      · cases h
    · cases h
  · rintro ⟨running, desired, ⟨hrunning, hdesired, hlt⟩, rfl⟩
    rw [hrunning, hdesired]
    dsimp only
    rw [if_pos hlt]
    exact List.mem_singleton_self _

theorem mem_imageDrift {before : JsValue} {event : DriftEvent} :
    event ∈ imageDrift before y ↔ ∃ previous current, OtherImage previous current before y ∧
      event = .imageChanged y previous current := by
  rw [imageDrift]
  constructor
  · intro h
    split at h
    · rename_i current previous hcurrent hprevious
      split_ifs at h with hne
      · exact ⟨previous, current, ⟨hcurrent, hprevious, hne⟩, List.mem_singleton.mp h⟩
      · cases h
    · cases h
  · rintro ⟨previous, current, ⟨hcurrent, hprevious, hne⟩, rfl⟩
    rw [hcurrent, hprevious]
    dsimp only
    rw [if_pos hne]
    exact List.mem_singleton_self _

/-- A new entity has no mismatch: it is added only. -/
theorem mismatch_mem_diffEntity {before : Option JsValue} :
    .replicaMismatch y running desired ∈ diffEntity before y ↔ before ≠ none ∧ TooFew running desired y := by
  cases before with
  | none =>
    constructor
    · intro h
      cases List.mem_singleton.mp h
    · intro h
      exact absurd rfl h.1
  | some before =>
    have hfew : .replicaMismatch y running desired ∈ replicaDrift y ↔ TooFew running desired y := by
      rw [mem_replicaDrift]
      constructor
      · rintro ⟨_, _, hfew, hevent⟩
        cases hevent
        exact hfew
      · intro hfew
        exact ⟨running, desired, hfew, rfl⟩
    rw [diffEntity, List.mem_append, List.mem_append, hfew]
    constructor
    · rintro ((h | h) | h)
      · cases mem_goneDrift h
      · exact ⟨Option.some_ne_none before, h⟩
      · obtain ⟨_, _, -, hevent⟩ := mem_imageDrift.mp h
        cases hevent
    · intro h
      exact .inl (.inr h.2)

theorem image_mem_diffEntity {before : Option JsValue} :
    .imageChanged y previous current ∈ diffEntity before y ↔
      ∃ x, before = some x ∧ OtherImage previous current x y := by
  cases before with
  | none =>
    constructor
    · intro h
      cases List.mem_singleton.mp h
    · rintro ⟨x, hx, -⟩
      cases hx
  | some before =>
    rw [diffEntity, List.mem_append, List.mem_append, mem_imageDrift]
    constructor
    · rintro ((h | h) | ⟨_, _, hother, hevent⟩)
      · cases mem_goneDrift h
      · obtain ⟨_, _, -, hevent⟩ := mem_replicaDrift.mp h
        cases hevent
      · cases hevent
        exact ⟨before, rfl, hother⟩
    · rintro ⟨x, hx, hother⟩
      obtain rfl := Option.some.inj hx
      exact .inr ⟨previous, current, hother, rfl⟩

theorem tooFew_congr (h : property (js "attributes") e = property (js "attributes") x) :
    TooFew running desired e ↔ TooFew running desired x := by
  rw [TooFew, TooFew, attributeOf, attributeOf, h, attributeOf, attributeOf]

theorem otherImage_congr {before : JsValue}
    (h : property (js "attributes") e = property (js "attributes") x) :
    OtherImage previous current before e ↔ OtherImage previous current before x := by
  rw [OtherImage, OtherImage, attributeOf, h, attributeOf, attributeOf]

/-! ### What the sweep leaves -/

/-- The statuses aside, a sweep leaves the records as they are reported. -/
theorem agreeOn_post (hreports : ReportsAt input now) (hvalid : ValidGraph rt.isDateTime prior)
    {keys : List JsString} (hkeys : ∀ k ∈ keys, k ∈ part.reportKeys)
    (hstatus : js "status" ∉ keys) :
    AgreeOn keys (recordById id (part.records (reconciled (rt.reconciliation input (rt.enumerate input prior).2)
      (rt.enumerate input prior).1))) (rt.held input prior part id) := by
  have henum := (rt.enumerates input prior).valid hvalid
  have hheld := (SweepRuntime.agreeOn_held hreports hvalid part id).mono hkeys
  rw [recordById_reconciled _ henum]
  cases hcurrent : recordById id (part.records (rt.enumerate input prior).1) with
  | none =>
    rw [hcurrent] at hheld
    exact hheld
  | some e =>
    rw [hcurrent] at hheld
    have hform := henum.wellFormed (recordById_mem hcurrent).1
    have hjudged : AgreeOn keys (some (judged (Reconciliation.verdict
        (rt.reconciliation input (rt.enumerate input prior).2) (rt.enumerate input prior).1 part) e))
          (some e) := by
      apply Option.Rel.some
      intro k hk
      apply property_judged hform
      rintro rfl
      exact hstatus hk
    exact hjudged.trans hheld

theorem held_observed (id : JsString) : rt.held input prior .entities id =
    ((rt.observed input id).map .obj).or (recordById id prior.entities) := asReported_eq ..

/-- The entities that a sweep compares are those whose platforms have been enumerated, with what is known
of them from before. -/
theorem reportsDrift_iff {cache cache' : DedupCache} {result : SweepResult}
    (hvalid : ValidGraph rt.isDateTime prior) (hunique : UniqueGraph prior)
    (hsweep : rt.sweep input prior cache = some (result, post, cache')) {event : JsValue → DriftEvent}
    (hentity : ∀ y, (event y).entity = y) :
    ReportsDrift result.driftEvents event id ↔ ∃ y, recordById id post.entities = some y ∧ input.covers y ∧
      event y ∈ diffEntity (recordById id prior.entities) y := by
  obtain ⟨hpost, hevents, -⟩ := sweep_result hvalid hunique hsweep
  have hunique' : UniqueIds post.entities := by
    rw [hpost]
    have henum := rt.enumerates input prior
    exact (reconciled_unique (henum.valid hvalid) (henum.unique hunique)).1
  have hprior {y : JsValue} (hid : idOf y = some id) :
      priorById prior.entities (property (js "id") y) = recordById id prior.entities := by
    rw [idOf_eq_some.mp hid]
    exact priorById_eq hunique.1 id
  constructor
  · rintro ⟨y, hid, hmem⟩
    rw [hevents, mem_computeDiff] at hmem
    obtain ⟨z, hz, hcovered, hdiff⟩ := hmem
    obtain rfl : z = y := (entity_of_diffEntity hdiff).symm.trans (hentity y)
    rw [hprior hid] at hdiff
    exact ⟨z, recordById_of_mem hunique' hz hid, onPlatform_iff.mp hcovered, hdiff⟩
  · rintro ⟨y, hy, hcovers, hdiff⟩
    obtain ⟨hmem, hid⟩ := recordById_mem hy
    rw [← hprior hid] at hdiff
    refine ⟨y, hid, ?_⟩
    rw [hevents, mem_computeDiff]
    exact ⟨y, hmem, onPlatform_iff.mpr hcovers, hdiff⟩

section Sweep

variable {cache cache' : DedupCache} {result : SweepResult} (hreports : ReportsAt input now)
  (hvalid : ValidGraph rt.isDateTime prior) (hunique : UniqueGraph prior)
  (hsweep : rt.sweep input prior cache = some (result, post, cache'))

include hreports hvalid hunique hsweep

/-- What a sweep leaves, as far as drift goes by it -/
theorem agreeOn_drift : AgreeOn [js "platformId", js "attributes"] (recordById id post.entities)
    (rt.held input prior .entities id) := by
  obtain ⟨rfl, -, -⟩ := sweep_result hvalid hunique hsweep
  exact @agreeOn_post rt input prior .entities id now hreports hvalid _ (by decide) (by decide)

theorem post_held {y : JsValue} (hy : recordById id post.entities = some y) :
    ∃ x, rt.held input prior .entities id = some x ∧ (input.covers y ↔ input.covers x) ∧
      property (js "attributes") y = property (js "attributes") x := by
  obtain ⟨x, hx, hsame⟩ := (agreeOn_drift hreports hvalid hunique hsweep).to_some hy
  have hattributes := hsame (js "attributes") (List.mem_cons_of_mem _ (List.mem_singleton_self _))
  exact ⟨x, hx, covers_congr (hsame _ (List.mem_cons_self ..)), hattributes⟩

theorem held_post {x : JsValue} (hx : rt.held input prior .entities id = some x) :
    ∃ y, recordById id post.entities = some y ∧ (input.covers y ↔ input.covers x) ∧
      property (js "attributes") y = property (js "attributes") x := by
  obtain ⟨y, hy, hsame⟩ := (agreeOn_drift hreports hvalid hunique hsweep).of_some hx
  have hattributes := hsame (js "attributes") (List.mem_cons_of_mem _ (List.mem_singleton_self _))
  exact ⟨y, hy, covers_congr (hsame _ (List.mem_cons_self ..)), hattributes⟩

theorem mismatch_iff : ReportsDrift result.driftEvents (.replicaMismatch · running desired) id ↔
    ∃ x, rt.held input prior .entities id = some x ∧ recordById id prior.entities ≠ none ∧ input.covers x ∧
      TooFew running desired x := by
  rw [reportsDrift_iff hvalid hunique hsweep fun _ => rfl]
  constructor
  · rintro ⟨y, hy, hcovers, hdiff⟩
    obtain ⟨x, hx, hsame, hattributes⟩ := post_held hreports hvalid hunique hsweep hy
    obtain ⟨hknown, hfew⟩ := mismatch_mem_diffEntity.mp hdiff
    exact ⟨x, hx, hknown, hsame.mp hcovers, (tooFew_congr hattributes).mp hfew⟩
  · rintro ⟨x, hx, hknown, hcovers, hfew⟩
    obtain ⟨y, hy, hsame, hattributes⟩ := held_post hreports hvalid hunique hsweep hx
    refine ⟨y, hy, hsame.mpr hcovers, ?_⟩
    exact mismatch_mem_diffEntity.mpr ⟨hknown, (tooFew_congr hattributes).mpr hfew⟩

theorem image_iff : ReportsDrift result.driftEvents (.imageChanged · previous current) id ↔
    ∃ x before, rt.held input prior .entities id = some x ∧ recordById id prior.entities = some before ∧
      input.covers x ∧ OtherImage previous current before x := by
  rw [reportsDrift_iff hvalid hunique hsweep fun _ => rfl]
  constructor
  · rintro ⟨y, hy, hcovers, hdiff⟩
    obtain ⟨x, hx, hsame, hattributes⟩ := post_held hreports hvalid hunique hsweep hy
    obtain ⟨before, hbefore, hother⟩ := image_mem_diffEntity.mp hdiff
    exact ⟨x, before, hx, hbefore, hsame.mp hcovers, (otherImage_congr hattributes).mp hother⟩
  · rintro ⟨x, before, hx, hbefore, hcovers, hother⟩
    obtain ⟨y, hy, hsame, hattributes⟩ := held_post hreports hvalid hunique hsweep hx
    refine ⟨y, hy, hsame.mpr hcovers, ?_⟩
    exact image_mem_diffEntity.mpr ⟨before, hbefore, (otherImage_congr hattributes).mpr hother⟩

omit hvalid hunique hsweep in
/-- What is observed is of a platform that has been enumerated. -/
theorem observed_covered {record : Fields} (h : rt.observed input id = some record) :
    input.covers (.obj record) := by
  obtain ⟨hmem, -, -⟩ := lastReport_mem h
  obtain ⟨p, hrecord⟩ := SweepInput.mem_reported.mp hmem
  exact ⟨p, hrecord.succeeded, (hreports .entities p record hrecord).platform rfl⟩

/-- An image changes only where it is observed: an entity that is not is compared with itself. -/
theorem image_observed : ReportsDrift result.driftEvents (.imageChanged · previous current) id ↔
    ∃ record before, rt.observed input id = some record ∧ recordById id prior.entities = some before ∧
      OtherImage previous current before (.obj record) := by
  rw [image_iff hreports hvalid hunique hsweep, held_observed]
  cases hobserved : rt.observed input id with
  | none =>
    rw [Option.map_none, Option.none_or]
    constructor
    · rintro ⟨x, before, hx, hbefore, -, hcurrent, hprevious, hne⟩
      obtain rfl := Option.some.inj (hx.symm.trans hbefore)
      cases hcurrent.symm.trans hprevious
      exact absurd rfl hne
    · rintro ⟨record, _, hrecord, -⟩
      cases hrecord
  | some record =>
    rw [Option.map_some, Option.some_or]
    constructor
    · rintro ⟨x, before, hx, hbefore, -, hother⟩
      obtain rfl := Option.some.inj hx
      exact ⟨record, before, rfl, hbefore, hother⟩
    · rintro ⟨_, before, hsame, hbefore, hother⟩
      obtain rfl := Option.some.inj hsame
      exact ⟨.obj record, before, rfl, hbefore, observed_covered hreports hobserved, hother⟩

/-- The drift of a sweep, whatever the cache holds, is what it has observed just when each shortfall of
replicas is observed, of an entity that was known. -/
theorem drift_observed_iff : ObservedDrift rt input prior result.driftEvents ↔
    ObservesTooFew rt input prior := by
  constructor
  · intro h
    constructor
    · intro id record running desired hrecord hfew
      obtain ⟨x, -, hknown, -, -⟩ := (mismatch_iff hreports hvalid hunique hsweep).mp
        ((h.mismatch id running desired).mpr ⟨record, hrecord, hfew⟩)
      exact hknown
    · intro id e running desired he hfew hnot hcovers
      have hheld : rt.held input prior .entities id = some e := by
        rw [held_observed, hnot, he]
        rfl
      have hknown : recordById id prior.entities ≠ none := by
        rw [he]
        exact Option.some_ne_none e
      obtain ⟨record, hrecord, -⟩ := (h.mismatch id running desired).mp
        ((mismatch_iff hreports hvalid hunique hsweep).mpr ⟨e, hheld, hknown, hcovers, hfew⟩)
      cases hnot.symm.trans hrecord
  · intro h
    constructor
    · intro id running desired
      rw [mismatch_iff hreports hvalid hunique hsweep, held_observed]
      cases hobserved : rt.observed input id with
      | none =>
        rw [Option.map_none, Option.none_or]
        constructor
        · rintro ⟨e, he, -, hcovers, hfew⟩
          exact absurd hcovers (h.seen id e running desired he hfew hobserved)
        · rintro ⟨record, hrecord, -⟩
          cases hrecord
      | some record =>
        rw [Option.map_some, Option.some_or]
        constructor
        · rintro ⟨x, hx, -, -, hfew⟩
          obtain rfl := Option.some.inj hx
          exact ⟨record, rfl, hfew⟩
        · rintro ⟨_, hsame, hfew⟩
          obtain rfl := Option.some.inj hsame
          have hknown := h.known id record running desired hobserved hfew
          exact ⟨.obj record, rfl, hknown, observed_covered hreports hobserved, hfew⟩
    · intro id previous current
      exact image_observed hreports hvalid hunique hsweep

end Sweep

/-! ### A web service that has been removed -/

theorem drift_observed_iff_proxy : ∃ result post cache',
    (labSweeps (.ofNat 1800000)).sweep proxySweep seenProxy ⟨.ofNat 3600000, []⟩ =
        some (result, post, cache') ∧
      (ObservedDrift (labSweeps (.ofNat 1800000)) proxySweep seenProxy result.driftEvents ↔
        ObservesTooFew (labSweeps (.ofNat 1800000)) proxySweep seenProxy) := by
  obtain ⟨result, cache', hsweep, -⟩ :=
    sweep_eq proxySweep (seenProxy_valid _) seenProxy_unique ⟨.ofNat 3600000, []⟩
  refine ⟨result, _, cache', hsweep, ?_⟩
  exact drift_observed_iff proxySweep_reports (seenProxy_valid _) seenProxy_unique hsweep

/-- One of two replicas runs. -/
def shortWeb (seen : JsString) : Fields :=
  foundEntity ⟨js "nas", none, seen⟩ (js "docker-swarm") (js "service:nas:web") (js "service")
    (.str (js "web")) [(js "replicas_running", .num (.ofNat 1)), (js "replicas_desired", .num (.ofNat 2))]

def seenWeb : GraphDocument := ⟨[.obj (shortWeb nasSeen)], []⟩

theorem seenWeb_valid (gone : JsNumber) : ValidGraph (labSweeps gone).isDateTime seenWeb := by
  intro part e he
  cases part with
  | entities =>
    obtain rfl := List.mem_singleton.mp he
    with_unfolding_all rfl
  | edges => cases he

theorem seenWeb_unique : UniqueGraph seenWeb := ⟨List.nodup_singleton _, List.nodup_nil⟩

/-- The next sweep does not see the service any more, and reports that a replica is missing. -/
theorem unseen_mismatch_reported : ¬ ∀ (rt : SweepRuntime) (input : SweepInput) (prior post : GraphDocument)
    (now : JsString) (cache cache' : DedupCache) (result : SweepResult), ReportsAt input now →
    ValidGraph rt.isDateTime prior → UniqueGraph prior →
    rt.sweep input prior cache = some (result, post, cache') →
    ObservedDrift rt input prior result.driftEvents := by
  intro h
  have hvalid := seenWeb_valid (.ofNat 1800000)
  obtain ⟨result, cache', hsweep, -⟩ := sweep_eq unseenSweep hvalid seenWeb_unique ⟨.ofNat 0, []⟩
  have hdrift := h _ _ _ _ _ _ _ _ unseenSweep_reports hvalid seenWeb_unique hsweep
  have hreported : ReportsDrift result.driftEvents (.replicaMismatch · (.ofNat 1) (.ofNat 2))
      (js "service:nas:web") := by
    rw [mismatch_iff unseenSweep_reports hvalid seenWeb_unique hsweep]
    have hcovers : unseenSweep.covers (.obj (shortWeb nasSeen)) := by
      refine ⟨js "nas", ?_, rfl⟩
      exact ⟨nasVisit [], List.mem_singleton_self _, rfl, rfl, [], [], rfl⟩
    have hknown : recordById (js "service:nas:web") seenWeb.entities = some (.obj (shortWeb nasSeen)) := by
      with_unfolding_all rfl
    refine ⟨.obj (shortWeb nasSeen), ?_, ?_, hcovers, rfl, rfl, ?_⟩
    · with_unfolding_all rfl
    · rw [hknown]
      exact Option.some_ne_none _
    · with_unfolding_all rfl
  obtain ⟨record, hrecord, -⟩ := (hdrift.mismatch _ _ _).mp hreported
  cases hrecord

end Homelab
