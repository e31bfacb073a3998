import Homelab.Automaton
import Homelab.DeployBackend
import Homelab.RoleCatalog
import Homelab.SweepOutage

/-! Sweeps with passes of the classifier between them, beside the same sweeps without. -/
namespace Homelab
open Js Locked

variable {keys : List JsString} {a b : Option JsValue}

/-! ### Sweeps and passes -/

/-- What a pass of the classifier goes by, its catalog included -/
structure ClassifierRuntime where
  text : TextRuntime
  catalog : List RolePattern

/-- The graph that a sweep leaves; it does not depend on the cache. -/
def SweepRuntime.graphAfter (rt : SweepRuntime) (input : SweepInput) (doc : GraphDocument) : GraphDocument :=
  ((rt.sweep input doc ⟨.ofNat 0, []⟩).map fun r => r.2.1).getD doc

/-- The status that the reconciliation of a sweep gives to an entity -/
def SweepRuntime.marks (rt : SweepRuntime) (input : SweepInput) (doc : GraphDocument) (id : JsString) :
    Option JsString :=
  (recordById id (rt.enumerate input doc).1.entities).bind
    (rt.reconciliation input (rt.enumerate input doc).2).entityVerdict

/-- The graph of a run with passes of the classifier, that of the run without, and the entities that a
pass has classified since they were last reported -/
structure TwinGraphs where
  annotated : GraphDocument
  plain : GraphDocument
  classified : JsString → Prop

inductive TwinTurn
  | sweep (input : SweepInput)
  | classify (now : JsString)

/-- The entities that a pass classifies -/
def ClassifierRuntime.Classifies (ct : ClassifierRuntime) (now : JsString) (doc : GraphDocument)
    (id : JsString) : Prop :=
  ∃ w ∈ classifyWrites ct.text ct.catalog now doc, idOf w.read = some id

/-- Both runs take the sweeps; the passes are taken by the first only. -/
def twins (rt : SweepRuntime) (ct : ClassifierRuntime) : Automaton TwinGraphs TwinTurn where
  allowed _
    | .sweep input => ∃ now, ReportsAt input now
    | .classify _ => True
  next s
    | .sweep input =>
      { annotated := rt.graphAfter input s.annotated
        plain := rt.graphAfter input s.plain
        classified := fun id => s.classified id ∧ ¬ rt.Reported input .entities id }
    | .classify now =>
      { s with
        annotated := (classify rt.isDateTime ct.text ct.catalog now s.annotated).1
        classified := fun id => s.classified id ∨ ct.Classifies now s.annotated id }

/-- Both runs begin with one graph. -/
def TwinGraphs.start (doc : GraphDocument) : TwinGraphs := ⟨doc, doc, fun _ => False⟩

/-- No sweep goes by the age of an entity that has been classified since it was last reported: it
reports the entity again, or has not enumerated its platform, or the entity is gone. -/
def JudgesNoClassified (rt : SweepRuntime) (s : TwinGraphs) : TwinTurn → Prop
  | .sweep input => ∀ id e, s.classified id → ¬ rt.Reported input .entities id →
      recordById id s.annotated.entities = some e → hasStatus (js "gone") e = false → ¬ input.covers e
  | .classify _ => True

variable {rt : SweepRuntime} {ct : ClassifierRuntime} {input : SweepInput} {now id : JsString}
  {doc doc' prior post : GraphDocument} {e x : JsValue}

theorem graphAfter_eq (hvalid : ValidGraph rt.isDateTime prior) (hunique : UniqueGraph prior) :
    rt.graphAfter input prior = reconciled (rt.reconciliation input (rt.enumerate input prior).2)
      (rt.enumerate input prior).1 := by
  obtain ⟨result, cache', hsweep, -⟩ := sweep_eq input hvalid hunique ⟨.ofNat 0, []⟩
  obtain ⟨hpost, -, -⟩ := sweep_result hvalid hunique hsweep
  rw [SweepRuntime.graphAfter, hsweep]
  exact hpost

/-- A sweep, whatever the cache holds, leaves that graph. -/
theorem sweep_graphAfter {cache cache' : DedupCache} {result : SweepResult}
    (hvalid : ValidGraph rt.isDateTime prior) (hunique : UniqueGraph prior)
    (h : rt.sweep input prior cache = some (result, post, cache')) : post = rt.graphAfter input prior := by
  rw [graphAfter_eq hvalid hunique]
  exact (sweep_result hvalid hunique h).1

/-! ### A pass of the classifier -/

theorem classifyWrites_fields {w : WriteBack} (h : w ∈ classifyWrites ct.text ct.catalog now doc) :
    w.part = .entities ∧ w.read ∈ doc.entities ∧
      w.fields.map Prod.fst = [js "last_seen", js "attributes"] := by
  obtain ⟨entity, hentity, hw⟩ := List.mem_filterMap.mp h
  obtain ⟨pattern, -, rfl⟩ := Option.map_eq_some_iff.mp hw
  exact ⟨rfl, (List.mem_filter.mp hentity).1, rfl⟩

/-- What a pass keeps: of the entities that it classifies the platform and the status, and the others
as they are. -/
structure Classified (rt : SweepRuntime) (ct : ClassifierRuntime) (now : JsString)
    (doc doc' : GraphDocument) :
    Prop where
  valid : ValidGraph rt.isDateTime doc'
  unique : UniqueGraph doc'
  steady : ∀ id, AgreeOn [js "platformId", js "status"] (recordById id doc'.entities)
    (recordById id doc.entities)
  others : ∀ id, ¬ ct.Classifies now doc id → recordById id doc'.entities = recordById id doc.entities

theorem classified_write (hunique : UniqueGraph doc) {w : WriteBack}
    (hw : w ∈ classifyWrites ct.text ct.catalog now doc) {d d' : GraphDocument}
    (hd : Classified rt ct now doc d) (hcall : w.call rt.isDateTime d = some d') :
    Classified rt ct now doc d' := by
  obtain ⟨hpart, hread, hfields⟩ := classifyWrites_fields hw
  have hid : js "id" ∉ w.fields.map Prod.fst := by
    rw [hfields]
    decide
  obtain ⟨k, hk, hvalid, hrecords, -⟩ := writeBack_call hid hcall
  rw [hpart] at hrecords
  have hbefore : recordById k doc.entities = some w.read := recordById_of_mem hunique.1 hread hk
  constructor
  · exact hvalid
  · exact (upserts_call hcall).unique hd.unique
  · intro id
    have hnew := hrecords id
    change recordById id d'.entities = if id = k then some (merged (recordById k d.entities) w.record)
      else recordById id d.entities at hnew
    rw [hnew]
    -- at the record written back: neither of the two fields is among those the call sets
    by_cases hsame : id = k
    · subst hsame
      have hold := hd.steady id
      rw [if_pos rfl]
      rw [hbefore] at hold ⊢
      cases hheld : recordById id d.entities with
      | none =>
        rw [hheld] at hold
        cases hold
      | some held =>
        rw [hheld] at hold
        cases hold with
        | some hold =>
          apply Option.Rel.some
          intro p hp
          have hobject := (@ValidGraph.wellFormed _ _ .entities hd.valid _ (recordById_mem hheld).1).object
          have hnot : p ∉ w.fields.map Prod.fst := by
            rw [hfields]
            rcases List.mem_cons.mp hp with rfl | hp
            · decide
            · rw [List.mem_singleton.mp hp]
              decide
          rw [property_writeBack hobject, if_neg hnot]
          split_ifs with hmem
          · rfl
          · exact hold p hp
    · rw [if_neg hsame]
      exact hd.steady id
  · intro id hother
    have hnew := hrecords id
    have hne : id ≠ k := by
      rintro rfl
      exact hother ⟨w, hw, hk⟩
    rw [if_neg hne] at hnew
    exact hnew.trans (hd.others id hother)

theorem classify_classified (hvalid : ValidGraph rt.isDateTime doc) (hunique : UniqueGraph doc) :
    Classified rt ct now doc (classify rt.isDateTime ct.text ct.catalog now doc).1 := by
  have hstart : Classified rt ct now doc doc :=
    ⟨hvalid, hunique, fun _ => agreeOn_refl _ _, fun _ _ => rfl⟩
  apply writeAll_keeps hstart
  intro w hw d d' hd hcall
  exact classified_write hunique hw hd hcall

/-! ### A sweep -/

/-- The reports decide on a record, or they leave it as it is. -/
theorem held_same (part : GraphPart) (id : JsString) (prior doc : GraphDocument) :
    (rt.held input prior part id = recordById id (part.records prior) ∧
      rt.held input doc part id = recordById id (part.records doc) ∧ ¬ rt.Reported input part id) ∨
    rt.held input prior part id = rt.held input doc part id ∧ rt.Reported input part id := by
  rcases asReported_same rt.isDateTime part id (reported input.visited part)
      (recordById id (part.records prior)) (recordById id (part.records doc)) with
    ⟨hp, hd, hnone⟩ | ⟨record, hrecord, haccepted, hid, hp, hd⟩
  · refine .inl ⟨hp, hd, ?_⟩
    rintro ⟨p, record, hreports, haccepted, hid⟩
    exact hnone record (SweepInput.mem_reported.mpr ⟨p, hreports⟩) haccepted hid
  · obtain ⟨p, hreports⟩ := SweepInput.mem_reported.mp hrecord
    exact .inr ⟨hp.trans hd.symm, p, record, hreports, haccepted, hid⟩

/-- What the enumeration leaves agrees where what it begins with does, and on all that is read of an
entity that is reported. -/
theorem agreeOn_enumerate (hreports : ReportsAt input now) (hprior : ValidGraph rt.isDateTime prior)
    (hdoc : ValidGraph rt.isDateTime doc) (hkeys : ∀ k ∈ keys, k ∈ GraphPart.entities.reads)
    (h : AgreeOn keys (recordById id prior.entities) (recordById id doc.entities) ∨
      rt.Reported input .entities id) :
    AgreeOn keys (recordById id (rt.enumerate input prior).1.entities)
      (recordById id (rt.enumerate input doc).1.entities) := by
  have hfirst : AgreeOn keys (recordById id (rt.enumerate input prior).1.entities)
      (rt.held input prior .entities id) :=
    AgreeOn.mono (SweepRuntime.agree_enumerate hreports hprior .entities id) hkeys
  have hsecond : AgreeOn keys (recordById id (rt.enumerate input doc).1.entities)
      (rt.held input doc .entities id) :=
    AgreeOn.mono (SweepRuntime.agree_enumerate hreports hdoc .entities id) hkeys
  have hheld : AgreeOn keys (rt.held input prior .entities id) (rt.held input doc .entities id) := by
    rcases @held_same rt input .entities id prior doc with ⟨hp, hd, hnot⟩ | ⟨hsame, -⟩
    · rw [hp, hd]
      exact h.resolve_right hnot
    · rw [hsame]
      exact agreeOn_refl _ _
  exact (hfirst.trans hheld).trans hsecond.symm

/-- What the reconciliation leaves agrees where the records before it do, when the verdicts are the
same. -/
theorem agreeOn_reconciled {R R' : Reconciliation} (hprior : ValidGraph rt.isDateTime prior)
    (hdoc : ValidGraph rt.isDateTime doc)
    (hagree : AgreeOn keys (recordById id prior.entities) (recordById id doc.entities))
    (hverdict : (recordById id prior.entities).bind R.entityVerdict =
      (recordById id doc.entities).bind R'.entityVerdict) :
    AgreeOn keys (recordById id (reconciled R prior).entities)
      (recordById id (reconciled R' doc).entities) := by
  have hleft := recordById_reconciled R hprior .entities id
  have hright := recordById_reconciled R' hdoc .entities id
  change recordById id (reconciled R prior).entities = _ at hleft
  change recordById id (reconciled R' doc).entities = _ at hright
  rw [hleft, hright]
  change AgreeOn keys (Option.map (judged R.entityVerdict) (recordById id prior.entities))
    (Option.map (judged R'.entityVerdict) (recordById id doc.entities))
  cases hp : recordById id prior.entities with
  | none =>
    rw [hp] at hagree
    cases hd : recordById id doc.entities with
    | none => exact .none
    | some x =>
      rw [hd] at hagree
      cases hagree
  | some e =>
    cases hd : recordById id doc.entities with
    | none =>
      rw [hp, hd] at hagree
      cases hagree
    | some x =>
      rw [hp, hd] at hagree hverdict
      change R.entityVerdict e = R'.entityVerdict x at hverdict
      have he := (@ValidGraph.wellFormed _ _ .entities hprior _ (recordById_mem hp).1).object
      have hx := (@ValidGraph.wellFormed _ _ .entities hdoc _ (recordById_mem hd).1).object
      cases hagree with
      | some hagree =>
        apply Option.Rel.some
        intro k hk
        rw [judged, judged, hverdict]
        cases R'.entityVerdict x with
        | none => exact hagree k hk
        | some status =>
          dsimp only
          rw [property_marked he, property_marked hx]
          split_ifs
          · rfl
          · exact hagree k hk

/-! ### The two runs -/

/-- What the two runs have in common. -/
structure TwinLaw (rt : SweepRuntime) (s : TwinGraphs) : Prop where
  annotated : ValidGraph rt.isDateTime s.annotated ∧ UniqueGraph s.annotated
  plain : ValidGraph rt.isDateTime s.plain ∧ UniqueGraph s.plain
  steady : ∀ id, AgreeOn [js "platformId", js "status"] (recordById id s.annotated.entities)
    (recordById id s.plain.entities)
  seen : ∀ id, ¬ s.classified id → AgreeOn GraphPart.entities.reads (recordById id s.annotated.entities)
    (recordById id s.plain.entities)

theorem reads_of_steady {k : JsString} (h : k ∈ [js "platformId", js "status"]) :
    k ∈ GraphPart.entities.reads := by
  rcases List.mem_cons.mp h with rfl | h
  · exact List.mem_cons_self ..
  · rw [List.mem_singleton.mp h]
    simp [GraphPart.reads]

theorem verdict_congr {R : Reconciliation} (h : AgreeOn GraphPart.entities.reads a b) :
    a.bind R.entityVerdict = b.bind R.entityVerdict := by
  cases h with
  | none => rfl
  | @some e x h =>
    have hplatform : onPlatform R.succeeded e = onPlatform R.succeeded x := by
      rw [onPlatform, onPlatform, h _ (List.mem_cons_self ..)]
    have hstatus (status : JsString) : hasStatus status e = hasStatus status x := by
      rw [hasStatus, hasStatus, h (js "status") (by simp [GraphPart.reads])]
    change R.entityVerdict e = R.entityVerdict x
    rw [Reconciliation.entityVerdict, Reconciliation.entityVerdict, hplatform, hstatus,
      Reconciliation.degraded_congr (h _ (by simp [GraphPart.reads])) (h _ (by simp [GraphPart.reads]))]

/-- Which platforms have been enumerated does not depend on the graph. -/
theorem succeeded_congr (input : SweepInput) (prior doc : GraphDocument) :
    rt.reconciliation input (rt.enumerate input prior).2 =
      rt.reconciliation input (rt.enumerate input doc).2 := by
  have key (ps : List PlatformVisit) (prior doc : GraphDocument) :
      succeededPlatformIds (enumeratePlatforms rt.isDateTime ps prior).2 =
        succeededPlatformIds (enumeratePlatforms rt.isDateTime ps doc).2 := by
    induction ps generalizing prior doc with
    | nil => rfl
    | cons p ps ih =>
      have hrest := ih (enumeratePlatform rt.isDateTime p prior).1 (enumeratePlatform rt.isDateTime p doc).1
      obtain ⟨platformId, platformKind, visit⟩ := p
      cases visit with
      | enumerated entities edges => exact congrArg (List.cons platformId) hrest
      | _ => exact hrest
  rw [SweepRuntime.reconciliation, SweepRuntime.reconciliation]
  exact congrArg _ (key _ prior doc)

/-- An entity whose platform has not been enumerated, or that is gone, is not judged. -/
theorem verdict_none_of_steady {R : Reconciliation} (h : AgreeOn [js "platformId", js "status"] a b)
    (hb : ∀ x ∈ b, hasStatus (js "gone") x = false → onPlatform R.succeeded x = false) :
    a.bind R.entityVerdict = none := by
  cases h with
  | none => rfl
  | @some e x h =>
    have hplatform : onPlatform R.succeeded e = onPlatform R.succeeded x := by
      rw [onPlatform, onPlatform, h _ (List.mem_cons_self ..)]
    have hgone : hasStatus (js "gone") e = hasStatus (js "gone") x := by
      rw [hasStatus, hasStatus, h _ (List.mem_cons_of_mem _ (List.mem_singleton_self _))]
    apply Reconciliation.entityVerdict_none.mpr
    rintro ⟨hon, hnot, -⟩
    rw [hplatform, hb x rfl (hgone.symm.trans hnot)] at hon
    cases hon

/-- A sweep that judges no classified entity marks the same in both runs. -/
theorem marks_twins {s : TwinGraphs} (h : TwinLaw rt s) (hreports : ReportsAt input now)
    (hjudges : JudgesNoClassified rt s (.sweep input)) (id : JsString) :
    rt.marks input s.annotated id = rt.marks input s.plain id := by
  rw [SweepRuntime.marks, SweepRuntime.marks, succeeded_congr input s.plain s.annotated]
  by_cases hseen : ¬ s.classified id ∨ rt.Reported input .entities id
  · -- all that is read of it is the same in both
    apply verdict_congr
    apply agreeOn_enumerate hreports h.annotated.1 h.plain.1 (fun k hk => hk)
    exact hseen.imp (h.seen id) fun hreported => hreported
  · rw [not_or, not_not] at hseen
    obtain ⟨hclassified, hnot⟩ := hseen
    -- its age differs, but it is not judged by it
    have hold : AgreeOn [js "platformId", js "status"]
      (recordById id (rt.enumerate input s.annotated).1.entities)
        (recordById id s.annotated.entities) := by
      have hheld := SweepRuntime.agree_enumerate hreports h.annotated.1 .entities id
      rcases @held_same rt input .entities id s.annotated s.annotated with ⟨hsame, -, -⟩ | ⟨-, hreported⟩
      · rw [hsame] at hheld
        exact AgreeOn.mono hheld fun k hk => reads_of_steady hk
      · exact absurd hreported hnot
    have hunjudged : ∀ x ∈ recordById id s.annotated.entities, hasStatus (js "gone") x = false →
        onPlatform (rt.reconciliation input (rt.enumerate input s.annotated).2).succeeded x = false := by
      intro x hx hgone
      rw [Bool.eq_false_iff]
      intro hon
      exact hjudges id x hclassified hnot hx hgone (onPlatform_iff.mp hon)
    have hplain : AgreeOn [js "platformId", js "status"]
      (recordById id (rt.enumerate input s.plain).1.entities)
        (recordById id s.annotated.entities) := by
      apply AgreeOn.trans _ hold
      exact (agreeOn_enumerate hreports h.annotated.1 h.plain.1 (fun k hk => reads_of_steady hk)
        (.inl (h.steady id))).symm
    rw [verdict_none_of_steady hold hunjudged, verdict_none_of_steady hplain hunjudged]

theorem graphAfter_valid (hvalid : ValidGraph rt.isDateTime doc) (hunique : UniqueGraph doc) :
    ValidGraph rt.isDateTime (rt.graphAfter input doc) ∧ UniqueGraph (rt.graphAfter input doc) := by
  have henum := rt.enumerates input doc
  rw [graphAfter_eq hvalid hunique]
  exact ⟨reconciled_valid (henum.valid hvalid), reconciled_unique (henum.valid hvalid) (henum.unique hunique)⟩

theorem twinLaw_sweep {s : TwinGraphs} (h : TwinLaw rt s) (hreports : ReportsAt input now)
    (hjudges : JudgesNoClassified rt s (.sweep input)) :
    TwinLaw rt ((twins rt ct).next s (.sweep input)) := by
  have hafter {keys : List JsString} {id : JsString} (hkeys : ∀ k ∈ keys, k ∈ GraphPart.entities.reads)
      (hagree : AgreeOn keys (recordById id s.annotated.entities) (recordById id s.plain.entities) ∨
        rt.Reported input .entities id) :
      AgreeOn keys (recordById id (rt.graphAfter input s.annotated).entities)
        (recordById id (rt.graphAfter input s.plain).entities) := by
    rw [graphAfter_eq h.annotated.1 h.annotated.2, graphAfter_eq h.plain.1 h.plain.2]
    apply agreeOn_reconciled ((rt.enumerates input _).valid h.annotated.1)
      ((rt.enumerates input _).valid h.plain.1)
    · exact agreeOn_enumerate hreports h.annotated.1 h.plain.1 hkeys hagree
    · exact marks_twins h hreports hjudges id
  constructor
  · exact graphAfter_valid h.annotated.1 h.annotated.2
  · exact graphAfter_valid h.plain.1 h.plain.2
  · intro id
    exact hafter (fun k hk => reads_of_steady hk) (.inl (h.steady id))
  · intro id hnot
    apply hafter fun k hk => hk
    by_cases hclassified : s.classified id
    · right
      by_contra hreported
      exact hnot ⟨hclassified, hreported⟩
    · exact .inl (h.seen id hclassified)

theorem twinLaw_classify {s : TwinGraphs} (h : TwinLaw rt s) :
    TwinLaw rt ((twins rt ct).next s (.classify now)) := by
  have hpass := @classify_classified rt ct now s.annotated h.annotated.1 h.annotated.2
  constructor
  · exact ⟨hpass.valid, hpass.unique⟩
  · exact h.plain
  · intro id
    exact (hpass.steady id).trans (h.steady id)
  · intro id hnot
    rw [show recordById id ((twins rt ct).next s (.classify now)).annotated.entities =
      recordById id s.annotated.entities from hpass.others id fun hclassifies => hnot (.inr hclassifies)]
    exact h.seen id fun hclassified => hnot (.inl hclassified)

/-- In every run, each sweep marks the entities that it marks in the run without the passes, as long as
no sweep goes by the age of an entity that a pass has classified since it was last reported. -/
theorem classify_keeps_marks (rt : SweepRuntime) (ct : ClassifierRuntime) (doc : GraphDocument)
    (hvalid : ValidGraph rt.isDateTime doc) (hunique : UniqueGraph doc) (s : TwinGraphs)
    (hreaches : (twins rt ct).Reaches (JudgesNoClassified rt) (.start doc) s) (input : SweepInput)
    (now : JsString)
    (hreports : ReportsAt input now) (hjudges : JudgesNoClassified rt s (.sweep input)) (id : JsString) :
    rt.marks input s.annotated id = rt.marks input s.plain id := by
  have hlaw : TwinLaw rt s := by
    apply hreaches.invariant
    · exact ⟨⟨hvalid, hunique⟩, ⟨hvalid, hunique⟩, fun _ => agreeOn_refl _ _, fun _ _ => agreeOn_refl _ _⟩
    · intro s turn hlaw hallowed hcondition
      cases turn with
      | sweep input =>
        obtain ⟨now, hreports⟩ := hallowed
        exact twinLaw_sweep hlaw hreports hcondition
      | classify now => exact twinLaw_classify hlaw
  exact marks_twins hlaw hreports hjudges id

/-! ### A proxy that has vanished -/

def labClassifier : ClassifierRuntime where
  text := ⟨lowerCase, fun _ _ _ => some false⟩
  catalog := serviceRoleCatalog

def proxyAt (seen : JsString) : Fields :=
  foundEntity ⟨js "nas", none, seen⟩ (js "docker-swarm") (js "service:nas:proxy") (js "service")
    (.str (js "proxy")) [(js "image", .str (js "traefik:v3"))]

/-- The proxy that has been seen an hour before -/
def seenProxy : GraphDocument := ⟨[.obj (proxyAt nasSeen)], []⟩

/-- The proxy is still there an hour later. -/
def proxyVisit : PlatformVisit := ⟨js "nas", js "docker-swarm", .enumerated [proxyAt laterSeen] []⟩

def proxySweep : SweepInput := ⟨laterSeen, none, [proxyVisit], fun _ => true⟩

theorem seenProxy_valid (gone : JsNumber) : ValidGraph (labSweeps gone).isDateTime seenProxy := by
  intro part e he
  cases part with
  | entities =>
    obtain rfl := List.mem_singleton.mp he
    with_unfolding_all rfl
  | edges => cases he

theorem seenProxy_unique : UniqueGraph seenProxy := ⟨List.nodup_singleton _, List.nodup_nil⟩

theorem proxyAt_reported (seen : JsString) : ReportedAt .entities (js "nas") seen (proxyAt seen) :=
  @foundEntity_reported ⟨js "nas", none, seen⟩ _ _ _ _ _

theorem proxySweep_reports : ReportsAt proxySweep laterSeen := by
  rintro part p record ⟨q, hq, -, rfl, hrecord⟩
  obtain rfl := List.mem_singleton.mp hq
  cases part with
  | entities =>
    obtain rfl := List.mem_singleton.mp hrecord
    exact proxyAt_reported laterSeen
  | edges => cases hrecord

theorem unseenSweep_reports : ReportsAt unseenSweep laterSeen := by
  rintro part p record ⟨q, hq, -, rfl, hrecord⟩
  obtain rfl := List.mem_singleton.mp hq
  cases part <;> cases hrecord

/-- The two runs, once the proxy has been classified -/
def classifiedProxy : TwinGraphs :=
  (twins (labSweeps (.ofNat 1800000)) labClassifier).next (.start seenProxy) (.classify laterSeen)

theorem classifiedProxy_reached {C : TwinGraphs → TwinTurn → Prop}
    (h : C (.start seenProxy) (.classify laterSeen)) :
    (twins (labSweeps (.ofNat 1800000)) labClassifier).Reaches C (.start seenProxy) classifiedProxy := by
  have hallowed : (twins (labSweeps (.ofNat 1800000)) labClassifier).allowed (.start seenProxy)
      (.classify laterSeen) := trivial
  exact (Automaton.Reaches.refl _).step hallowed h

theorem proxySweep_reported : (labSweeps (.ofNat 1800000)).Reported proxySweep .entities
    (js "service:nas:proxy") := by
  have hreports : proxySweep.Reports .entities (js "nas") (proxyAt laterSeen) :=
    ⟨proxyVisit, List.mem_singleton_self _, rfl, rfl, List.mem_singleton_self _⟩
  refine ⟨js "nas", proxyAt laterSeen, hreports, ?_, ?_⟩
  · with_unfolding_all rfl
  · rfl

theorem classify_keeps_marks_proxy :
    (labSweeps (.ofNat 1800000)).marks proxySweep classifiedProxy.annotated (js "service:nas:proxy") =
      (labSweeps (.ofNat 1800000)).marks proxySweep classifiedProxy.plain (js "service:nas:proxy") := by
  apply classify_keeps_marks _ labClassifier seenProxy (seenProxy_valid _) seenProxy_unique _
    (classifiedProxy_reached trivial) proxySweep laterSeen proxySweep_reports
  rintro id e (hclassified | ⟨w, hw, hid⟩) hnot
  · cases hclassified
  · -- the pass has classified the proxy only, and the sweep reports it
    obtain ⟨-, hread, -⟩ := @classifyWrites_fields labClassifier _ _ w hw
    have hself : idOf (.obj (proxyAt nasSeen)) = some (js "service:nas:proxy") := rfl
    rw [List.mem_singleton.mp hread, hself] at hid
    obtain rfl := Option.some.inj hid
    exact absurd proxySweep_reported hnot

/-- A proxy that has vanished an hour ago is gone after the sweep, but not when it has been classified
just before. -/
theorem classified_kept_alive : ¬ ∀ (rt : SweepRuntime) (ct : ClassifierRuntime) (doc : GraphDocument)
    (s : TwinGraphs) (input : SweepInput) (now id : JsString), ValidGraph rt.isDateTime doc →
    UniqueGraph doc → (twins rt ct).Reaches Automaton.anyEvent (.start doc) s → ReportsAt input now →
    rt.marks input s.annotated id = rt.marks input s.plain id := by
  intro h
  have hlaw := h _ _ _ _ _ _ (js "service:nas:proxy") (seenProxy_valid (.ofNat 1800000))
    seenProxy_unique (classifiedProxy_reached trivial) unseenSweep_reports
  have hannotated : (labSweeps (.ofNat 1800000)).marks unseenSweep classifiedProxy.annotated
      (js "service:nas:proxy") = none := by
    with_unfolding_all rfl
  have hplain : (labSweeps (.ofNat 1800000)).marks unseenSweep classifiedProxy.plain
      (js "service:nas:proxy") = some (js "gone") := by
    with_unfolding_all rfl
  rw [hannotated, hplain] at hlaw
  cases hlaw

end Homelab
