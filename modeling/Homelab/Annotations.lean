import Homelab.GraphWriters
import Homelab.SweepDrift

/-! The annotations of an entity, through an enumeration. -/
namespace Homelab
open Js Locked

variable {rt : SweepRuntime} {input : SweepInput} {prior : GraphDocument} {id now : JsString} {e x : JsValue}

/-- The attributes that the classifier and the scorer write -/
def annotationKeys : List JsString :=
  [js "role", js "role_confidence", js "health_score", js "health_grade"]

def SameAnnotations (e e' : JsValue) : Prop := ∀ k ∈ annotationKeys, attributeOf k e' = attributeOf k e

/-- The entity of the id is still there, with its annotations. -/
def KeepsAnnotations (id : JsString) (before after : GraphDocument) : Prop :=
  ∀ e, recordById id before.entities = some e →
    ∃ e', recordById id after.entities = some e' ∧ SameAnnotations e e'

/-- An enumeration keeps the annotations of an entity just when what it observes of the entity, if it
observes it, has them as well. -/
theorem annotations_kept_iff (hreports : ReportsAt input now) (hvalid : ValidGraph rt.isDateTime prior) :
    KeepsAnnotations id prior (rt.enumerate input prior).1 ↔
      ∀ e record, recordById id prior.entities = some e → rt.observed input id = some record →
        SameAnnotations e (.obj record) := by
  have hagree := (SweepRuntime.agreeOn_held hreports hvalid .entities id).mono
    fun k (hk : k ∈ [js "attributes"]) => (show k ∈ GraphPart.reportKeys .entities by
      rw [List.mem_singleton.mp hk]
      decide)
  change AgreeOn _ (recordById id (rt.enumerate input prior).1.entities) _ at hagree
  rw [held_observed] at hagree
  constructor
  · intro h e record he hrecord
    obtain ⟨e', he', hsame⟩ := h e he
    rw [hrecord, Option.map_some, Option.some_or] at hagree
    obtain ⟨x, hx, hattributes⟩ := hagree.to_some he'
    obtain rfl := Option.some.inj hx
    intro k hk
    rw [← hsame k hk, attributeOf, attributeOf, hattributes _ (List.mem_singleton_self _)]
  · intro h e he
    have hheld : ∃ x, ((rt.observed input id).map .obj).or (recordById id prior.entities) = some x ∧
        SameAnnotations e x := by
      cases hrecord : rt.observed input id with
      | none => exact ⟨e, he, fun _ _ => rfl⟩
      | some record => exact ⟨.obj record, rfl, h e record he hrecord⟩
    obtain ⟨x, hx, hsame⟩ := hheld
    obtain ⟨e', he', hattributes⟩ := hagree.of_some hx
    refine ⟨e', he', ?_⟩
    intro k hk
    rw [attributeOf, hattributes _ (List.mem_singleton_self _)]
    exact hsame k hk

/-! ### The proxy, classified and scored -/

theorem annotations_kept_iff_proxy :
    KeepsAnnotations (js "service:nas:proxy") seenProxy
        ((labSweeps (.ofNat 1800000)).enumerate proxySweep seenProxy).1 ↔
      ∀ e record, recordById (js "service:nas:proxy") seenProxy.entities = some e →
        (labSweeps (.ofNat 1800000)).observed proxySweep (js "service:nas:proxy") = some record →
        SameAnnotations e (.obj record) :=
  annotations_kept_iff proxySweep_reports (seenProxy_valid _)

def annotatedProxy : GraphDocument :=
  scoreAll labScores (healthScorer none none []) (fun _ => true) 3600000 (some [])
    (classify (fun _ => true) labClassifier.text labClassifier.catalog laterSeen seenProxy).1

/-- The attributes of the proxy, once both passes have been over it -/
theorem annotatedProxy_attributes :
    (recordById (js "service:nas:proxy") annotatedProxy.entities).map (property (js "attributes")) =
      some (.obj [(js "image", .str (js "traefik:v3")), (js "role", .str (js "reverse-proxy")),
        (js "role_confidence", .num (.ofScaledInt 92 2)), (js "health_score", .num (.ofNat 100)),
        (js "health_grade", .str (js "healthy"))]) := by
  with_unfolding_all rfl

/-- The proxy is reported again as it was, and has no role and no score any more. -/
theorem reported_unannotated : ¬ ∀ (rt : SweepRuntime) (ct : ClassifierRuntime) (scores : ScoreRuntime)
    (scorer : HealthScorer) (scoredAt : ℤ) (stored : Option (List Observation))
    (doc annotated : GraphDocument)
    (input : SweepInput) (classifiedAt now id : JsString) (e : JsValue) (record : Fields),
    ValidGraph rt.isDateTime doc → UniqueGraph doc →
    annotated = scoreAll scores scorer rt.isDateTime scoredAt stored
      (classify rt.isDateTime ct.text ct.catalog classifiedAt doc).1 →
    ReportsAt input now → recordById id annotated.entities = some e → rt.observed input id = some record →
    (∀ k ∈ [js "image", js "labels", js "ports"], attributeOf k (.obj record) = attributeOf k e) →
    KeepsAnnotations id annotated (rt.enumerate input annotated).1 := by
  intro h
  obtain ⟨e, he, hattributes⟩ := Option.map_eq_some_iff.mp annotatedProxy_attributes
  have hobserved : (labSweeps (.ofNat 1800000)).observed proxySweep (js "service:nas:proxy") =
      some (proxyAt laterSeen) := by
    with_unfolding_all rfl
  have hunchanged : ∀ k ∈ [js "image", js "labels", js "ports"],
      attributeOf k (.obj (proxyAt laterSeen)) = attributeOf k e := by
    intro k hk
    rw [attributeOf, attributeOf, hattributes]
    simp only [List.mem_cons, List.not_mem_nil, or_false] at hk
    rcases hk with rfl | rfl | rfl <;> with_unfolding_all rfl
  obtain ⟨e', he', hsame⟩ := h (labSweeps (.ofNat 1800000)) _ _ _ _ _ _ annotatedProxy _ _ _ _ _ _
    (seenProxy_valid _) seenProxy_unique rfl proxySweep_reports he hobserved hunchanged e he
  have hrole := hsame (js "role") (List.mem_cons_self ..)
  have hreported : (recordById (js "service:nas:proxy")
      ((labSweeps (.ofNat 1800000)).enumerate proxySweep annotatedProxy).1.entities).map
        (property (js "attributes")) = some (.obj [(js "image", .str (js "traefik:v3"))]) := by
    with_unfolding_all rfl
  rw [he', Option.map_some] at hreported
  rw [attributeOf, attributeOf, hattributes, Option.some.inj hreported] at hrole
  exact JsValue.noConfusion hrole

end Homelab
