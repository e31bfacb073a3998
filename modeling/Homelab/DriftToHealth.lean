import Homelab.Annotations
import Homelab.ProbeScans

/-! The drift that a sweep emits, where the scores of the entities count it. -/
namespace Homelab
open Js Locked

variable {rt : SweepRuntime} {input : SweepInput} {prior post doc : GraphDocument} {e x y : JsValue}
  {event : DriftEvent} {drift : DriftObservation} {observations : List Observation} {obs : Observation}

/-! ### What refers to an entity -/

/-- `kind/id`, by which a sweep refers to an entity -/
def driftResource (e : JsValue) : JsString := textOf (js "kind") e ++ js "/" ++ textOf (js "id") e

/-- `kind/name`, by which the scorer looks for it -/
def kindName (e : JsValue) : JsString := textOf (js "kind") e ++ js "/" ++ textOf (js "name") e

theorem resource_of_event {discoveredAt : JsString} (h : buildObservation event discoveredAt = some drift) :
    drift.resource = driftResource event.entity := by
  cases event with
  | entityAdded entity => cases h
  | entityGone entity =>
    cases h
    rfl
  | replicaMismatch entity running desired =>
    cases h
    rfl
  | imageChanged entity previous current =>
    cases h
    rfl

/-! ### What a score counts -/

theorem mem_byResource {resource : JsString} :
    obs ∈ byResource observations resource ↔ obs ∈ observations ∧ obs.resource = resource := by
  rw [byResource, List.mem_filter, decide_eq_true_eq]

/-- An observation is counted by the id of an entity, or by its kind and name. -/
theorem mem_entityObservations (hobs : obs ∈ observations) :
    obs ∈ entityObservations observations e ↔
      obs.resource = textOf (js "id") e ∨ obs.resource = kindName e := by
  have hid : obs ∈ byResource observations (textOf (js "id") e) ↔ obs.resource = textOf (js "id") e :=
    mem_byResource.trans (and_iff_right hobs)
  have hname : obs ∈ byResource observations (kindName e) ↔ obs.resource = kindName e :=
    mem_byResource.trans (and_iff_right hobs)
  change obs ∈ byResource observations (textOf (js "id") e) ++
    (if kindName e ≠ textOf (js "id") e then byResource observations (kindName e) else []) ↔ _
  rw [List.mem_append, hid]
  split_ifs with hne
  · rw [hname]
  · rw [not_not] at hne
    rw [hne, or_self]
    simp

/-- The score of the entity counts the observation, and no other one of the graph does. -/
def CountedOnlyFor (observations : List Observation) (obs : Observation) (e : JsValue) (doc : GraphDocument) :
    Prop :=
  obs ∈ entityObservations observations e ∧
    ∀ y ∈ doc.entities, y ≠ e → obs ∉ entityObservations observations y

/-- The entity is named by its id, and no other has that for its kind and name, or as its own id. -/
structure NamedById (e : JsValue) (doc : GraphDocument) : Prop where
  self : textOf (js "name") e = textOf (js "id") e
  others : ∀ y ∈ doc.entities, y ≠ e → textOf (js "id") y ≠ driftResource e ∧ kindName y ≠ driftResource e

/-- A resource is longer than the id that it is made of. -/
theorem driftResource_ne_id (e : JsValue) : driftResource e ≠ textOf (js "id") e := by
  intro h
  have hlength := congrArg List.length h
  rw [driftResource, List.length_append, List.length_append] at hlength
  have hslash : (js "/").length = 1 := rfl
  omega

theorem driftResource_kindName :
    driftResource e = kindName e ↔ textOf (js "name") e = textOf (js "id") e := by
  rw [driftResource, kindName, List.append_cancel_left_eq, eq_comm]

theorem countedOnlyFor_iff (hobs : obs ∈ observations) (hresource : obs.resource = driftResource e) :
    CountedOnlyFor observations obs e doc ↔ NamedById e doc := by
  have hself : obs ∈ entityObservations observations e ↔ textOf (js "name") e = textOf (js "id") e := by
    rw [mem_entityObservations hobs, hresource, driftResource_kindName]
    exact or_iff_right (driftResource_ne_id e)
  have hother (y : JsValue) : obs ∉ entityObservations observations y ↔
      textOf (js "id") y ≠ driftResource e ∧ kindName y ≠ driftResource e := by
    rw [mem_entityObservations hobs, hresource, not_or, ne_comm, ne_comm (a := kindName y)]
  constructor
  · rintro ⟨hmem, hnot⟩
    exact ⟨hself.mp hmem, fun y hy hne => (hother y).mp (hnot y hy hne)⟩
  · rintro ⟨hname, hothers⟩
    exact ⟨hself.mpr hname, fun y hy hne => (hother y).mpr (hothers y hy hne)⟩

/-! ### From the sweep to the scores -/

/-- What a sweep emits is about an entity of the graph that it leaves. -/
theorem emitted_entity {cache cache' : DedupCache} {result : SweepResult}
    (hvalid : ValidGraph rt.isDateTime prior) (hunique : UniqueGraph prior)
    (hsweep : rt.sweep input prior cache = some (result, post, cache')) (h : drift ∈ result.observations) :
    ∃ event ∈ result.driftEvents, buildObservation event input.sweepAt = some drift ∧
      event.entity ∈ post.entities := by
  obtain ⟨-, hevents, hobservations⟩ := sweep_result hvalid hunique hsweep
  rw [hobservations] at h
  obtain ⟨event, hevent, hbuilt⟩ := mem_emitDrift h
  refine ⟨event, hevent, hbuilt, ?_⟩
  rw [hevents, mem_computeDiff] at hevent
  obtain ⟨y, hy, -, hdiff⟩ := hevent
  rw [entity_of_diffEntity hdiff]
  exact hy

/-- What a sweep emits about an entity is counted, once it is listed, in the score of that entity and
in no other, just when the entity is named by its id and nothing else is called so. -/
theorem drift_counted_iff {cache cache' : DedupCache} {result : SweepResult}
    (hvalid : ValidGraph rt.isDateTime prior) (hunique : UniqueGraph prior)
    (hsweep : rt.sweep input prior cache = some (result, post, cache')) (h : drift ∈ result.observations) :
    ∃ event ∈ result.driftEvents, buildObservation event input.sweepAt = some drift ∧
      event.entity ∈ post.entities ∧ ∀ (doc : GraphDocument) (e : JsValue), e ∈ doc.entities →
        textOf (js "id") e = textOf (js "id") event.entity →
        textOf (js "kind") e = textOf (js "kind") event.entity →
        ∀ (scores : ScoreRuntime) (scorer : HealthScorer) (now : ℤ) (stored : Option (List Observation))
          (rid : JsString), drift.record rid ∈ scorer.openObservations scores now stored →
          (CountedOnlyFor (scorer.openObservations scores now stored) (drift.record rid) e doc ↔
            NamedById e doc) := by
  obtain ⟨event, hevent, hbuilt, hentity⟩ := emitted_entity hvalid hunique hsweep h
  refine ⟨event, hevent, hbuilt, hentity, ?_⟩
  intro doc e _ hid hkind scores scorer now stored rid hlisted
  apply countedOnlyFor_iff hlisted
  change drift.resource = _
  rw [resource_of_event hbuilt, driftResource, driftResource, hid, hkind]

/-! ### A service with a replica missing -/

def webSweep : SweepInput :=
  ⟨laterSeen, none, [⟨js "nas", js "docker-swarm", .enumerated [shortWeb laterSeen] []⟩], fun _ => true⟩

/-- The sweep emits one observation, of the service. -/
theorem webSweep_emits : ∃ result post cache', (labSweeps (.ofNat 1800000)).sweep webSweep seenWeb
      ⟨.ofNat 3600000, []⟩ = some (result, post, cache') ∧ (∃ drift, drift ∈ result.observations) ∧
        post.entities.map (textOf (js "name")) = [js "web"] ∧
          post.entities.map (textOf (js "id")) = [js "service:nas:web"] := by
  obtain ⟨result, cache', hsweep, -⟩ :=
    sweep_eq webSweep (seenWeb_valid (.ofNat 1800000)) seenWeb_unique ⟨.ofNat 3600000, []⟩
  have hcomputed : ((labSweeps (.ofNat 1800000)).sweep webSweep seenWeb ⟨.ofNat 3600000, []⟩).map
      (fun r => (r.1.observations.length, r.2.1.entities.map (textOf (js "name")),
        r.2.1.entities.map (textOf (js "id")))) = some (1, [js "web"], [js "service:nas:web"]) := by
    with_unfolding_all rfl
  rw [hsweep, Option.map_some, Option.some_inj, Prod.ext_iff, Prod.ext_iff] at hcomputed
  obtain ⟨hlength, hnames, hids⟩ := hcomputed
  have hpos : 0 < result.observations.length := by
    rw [show result.observations.length = 1 from hlength]
    exact Nat.one_pos
  exact ⟨result, _, cache', hsweep, List.exists_mem_of_length_pos hpos, hnames, hids⟩

theorem web_listed (drift : DriftObservation) : drift.record (js "o1") ∈
    (healthScorer none none []).openObservations labScores 3600000 (some [drift.record (js "o1")]) := by
  apply List.mem_filter.mpr
  refine ⟨List.mem_singleton_self _, ?_⟩
  change (!((if drift.discoveredAt = nasSeen then some (0 : ℤ) else some 3600000).any _)) = true
  split_ifs <;> decide

theorem drift_counted_iff_web : ∃ result post cache' drift,
    (labSweeps (.ofNat 1800000)).sweep webSweep seenWeb
      ⟨.ofNat 3600000, []⟩ = some (result, post, cache') ∧ drift ∈ result.observations ∧
      ∃ event ∈ result.driftEvents, buildObservation event webSweep.sweepAt = some drift ∧
        (CountedOnlyFor ((healthScorer none none []).openObservations labScores 3600000
            (some [drift.record (js "o1")])) (drift.record (js "o1")) event.entity post ↔
          NamedById event.entity post) := by
  obtain ⟨result, post, cache', hsweep, ⟨drift, hdrift⟩, -⟩ := webSweep_emits
  obtain ⟨event, hevent, hbuilt, hentity, hcounted⟩ :=
    drift_counted_iff (seenWeb_valid _) seenWeb_unique hsweep hdrift
  refine ⟨result, post, cache', drift, hsweep, hdrift, event, hevent, hbuilt, ?_⟩
  exact hcounted post event.entity hentity rfl rfl _ _ _ _ _ (web_listed drift)

/-- The missing replica is not counted in the score of the service. -/
theorem drift_uncounted : ¬ ∀ (rt : SweepRuntime) (input : SweepInput) (prior post : GraphDocument)
    (cache cache' : DedupCache) (result : SweepResult) (drift : DriftObservation) (event : DriftEvent)
    (scores : ScoreRuntime) (scorer : HealthScorer) (now : ℤ) (stored : Option (List Observation))
    (rid : JsString), ValidGraph rt.isDateTime prior → UniqueGraph prior →
    rt.sweep input prior cache = some (result, post, cache') → drift ∈ result.observations →
    event ∈ result.driftEvents → buildObservation event input.sweepAt = some drift →
    drift.record rid ∈ scorer.openObservations scores now stored →
    CountedOnlyFor (scorer.openObservations scores now stored) (drift.record rid) event.entity post := by
  intro h
  obtain ⟨result, post, cache', hsweep, ⟨drift, hdrift⟩, hnames, hids⟩ := webSweep_emits
  obtain ⟨event, hevent, hbuilt, hentity⟩ := emitted_entity (seenWeb_valid _) seenWeb_unique hsweep hdrift
  have hcounted := h _ _ _ _ _ _ _ drift event _ _ _ _ (js "o1") (seenWeb_valid _) seenWeb_unique hsweep
    hdrift hevent hbuilt (web_listed drift)
  have hresource : (drift.record (js "o1")).resource = driftResource event.entity := resource_of_event hbuilt
  have hself := ((countedOnlyFor_iff (web_listed drift) hresource).mp hcounted).self
  have hname : textOf (js "name") event.entity ∈ [js "web"] := hnames ▸ List.mem_map_of_mem hentity
  have hid : textOf (js "id") event.entity ∈ [js "service:nas:web"] := hids ▸ List.mem_map_of_mem hentity
  rw [List.mem_singleton.mp hname, List.mem_singleton.mp hid] at hself
  exact absurd hself (by decide)

end Homelab
