import Homelab.SweepMachine
import Homelab.SweepReports

/-! What a sweep does to the platforms that it has not reached: their entities, and the edges that have
an end there. -/
namespace Homelab
open Js Locked

variable {rt : SweepRuntime} {input : SweepInput} {prior post doc : GraphDocument} {part : GraphPart}
  {id now : JsString} {e x : JsValue}

/-! ### Silent platforms -/

/-- The platform of the entity has failed in the sweep, or it has not been enumerated. -/
def SweepInput.Silent (input : SweepInput) (e : JsValue) : Prop :=
  ∃ p, property (js "platformId") e = .str p ∧ ¬ input.succeeded p

/-- An end of the edge is an entity of the graph with such a platform. -/
def SweepInput.TouchesSilent (input : SweepInput) (doc : GraphDocument) (edge : JsValue) : Prop :=
  ∃ endpoint ∈ [js "from", js "to"], ∃ i e, property endpoint edge = .str i ∧
    recordById i doc.entities = some e ∧ input.Silent e

/-- The record has the status that it had. -/
def SameStatus (part : GraphPart) (id : JsString) (e : JsValue) (doc : GraphDocument) : Prop :=
  ∃ e', recordById id (part.records doc) = some e' ∧ property (js "status") e' = property (js "status") e

/-- Neither the enumeration nor the reconciliation changes a status there. -/
structure KeepsSilent (rt : SweepRuntime) (input : SweepInput) (prior post : GraphDocument) : Prop where
  entities : ∀ id e, recordById id prior.entities = some e → input.Silent e →
    SameStatus .entities id e (rt.enumerate input prior).1 ∧ SameStatus .entities id e post
  edges : ∀ id edge, recordById id prior.edges = some edge → input.TouchesSilent prior edge →
    SameStatus .edges id edge (rt.enumerate input prior).1 ∧ SameStatus .edges id edge post

/-! ### What the reconciliation would change -/

/-- The age of a record that is not gone has reached a threshold for its status. -/
def SweepRuntime.Due (rt : SweepRuntime) (input : SweepInput) (e : JsValue) : Prop :=
  hasStatus (js "gone") e = false ∧ (rt.reconciliation input []).degraded e ≠ none

/-- An enumeration that has succeeded reports the record, and the schema accepts it. -/
def SweepRuntime.Reported (rt : SweepRuntime) (input : SweepInput) (part : GraphPart)
    (id : JsString) : Prop :=
  ∃ p record, input.Reports part p record ∧ ValidReport rt.isDateTime part record ∧
    idOf (.obj record) = some id

namespace SweepRuntime

variable (rt : SweepRuntime) (input : SweepInput) (prior : GraphDocument)

/-- The platform of the entity at an end of an edge, as the reports leave the entity -/
def endPlatform (endpoint : JsString) (edge : JsValue) : JsValue :=
  match property endpoint edge with
  | .str i => ((rt.held input prior .entities i).map (property (js "platformId"))).getD .undefined
  | _ => .undefined

/-- The platform that an edge borrows: that of the entity it comes from, and where that has none the
one of the entity it goes to -/
def borrowedPlatform (edge : JsValue) : JsValue :=
  nullish (rt.endPlatform input prior (js "from") edge) (rt.endPlatform input prior (js "to") edge)

end SweepRuntime

/-- When a sweep leaves the platforms that it has not reached alone: what others report about their
entities and edges is active already, and is not due; and no edge with an end there is due that borrows
its platform from its other end, where that has been enumerated. -/
structure SparesSilent (rt : SweepRuntime) (input : SweepInput) (prior : GraphDocument) : Prop where
  entities : ∀ id e, recordById id prior.entities = some e → input.Silent e → rt.Reported input .entities id →
    hasStatus (js "active") e = true ∧ ∀ x, rt.held input prior .entities id = some x → ¬ rt.Due input x
  edges : ∀ id edge, recordById id prior.edges = some edge → input.TouchesSilent prior edge →
    rt.Reported input .edges id → hasStatus (js "active") edge = true
  borrowed : ∀ id edge, recordById id prior.edges = some edge → input.TouchesSilent prior edge →
    ∀ x p, rt.held input prior .edges id = some x → rt.borrowedPlatform input prior x = .str p →
      input.succeeded p → ¬ rt.Due input x

/-! ### Verdicts -/

namespace Reconciliation

variable {R : Reconciliation}

theorem degraded_congr (hseen : property (js "last_seen") e = property (js "last_seen") x)
    (hstatus : property (js "status") e = property (js "status") x) : R.degraded e = R.degraded x := by
  rw [degraded, degraded, age_congr hseen, hasStatus, hasStatus, hstatus]

theorem entityVerdict_none :
    R.entityVerdict e = none ↔
      ¬ (onPlatform R.succeeded e = true ∧ hasStatus (js "gone") e = false ∧ R.degraded e ≠ none) := by
  rw [entityVerdict]
  by_cases hplatform : onPlatform R.succeeded e = true
  · by_cases hgone : hasStatus (js "gone") e = true
    · simp [hplatform, hgone]
    · simp [hplatform, Bool.eq_false_iff.mpr hgone]
  · simp [Bool.eq_false_iff.mpr hplatform]

theorem edgeVerdict_none {entities : List JsValue} :
    R.edgeVerdict entities e = none ↔
      ¬ ((∃ p, edgePlatformId entities e = .str p ∧ p ∈ R.succeeded) ∧ hasStatus (js "gone") e = false ∧
        R.degraded e ≠ none) := by
  rw [edgeVerdict]
  by_cases hgone : hasStatus (js "gone") e = true
  · simp [hgone]
  · cases hplatform : edgePlatformId entities e with
    | str p =>
      by_cases hp : p ∈ R.succeeded
      · simp [hgone, hp]
      · simp [hgone, hp]
    | _ => simp [hgone]

theorem degraded_changes {status : JsString} (hdegraded : R.degraded e = some status)
    (hgone : hasStatus (js "gone") e = false) : property (js "status") e ≠ .str status := by
  intro hsame
  have hstatus : hasStatus status e = true := by
    rw [hasStatus_of_property hsame]
    exact decide_eq_true rfl
  rcases degraded_cases hdegraded with ⟨rfl, -⟩ | ⟨rfl, -, hactive⟩
  · rw [hgone] at hstatus
    cases hstatus
  · rw [hasStatus_inj hstatus (by decide)] at hactive
    cases hactive

/-- A verdict gives another status than the one that a record has. -/
theorem verdict_changes {current : GraphDocument} {status : JsString}
    (hverdict : R.verdict current part e = some status) : property (js "status") e ≠ .str status := by
  cases part with
  | entities =>
    obtain ⟨-, hgone, hdegraded⟩ := entityVerdict_cases hverdict
    exact degraded_changes hdegraded hgone
  | edges =>
    obtain ⟨hgone, hdegraded, -⟩ := edgeVerdict_cases hverdict
    exact degraded_changes hdegraded hgone

end Reconciliation

/-- A verdict that gives other statuses than those held leaves a record as it is just when there is none. -/
theorem status_judged {verdict : JsValue → Option JsString} (he : WellFormed e)
    (hchanges : ∀ status, verdict e = some status → property (js "status") e ≠ .str status) :
    property (js "status") (judged verdict e) = property (js "status") e ↔ verdict e = none := by
  rw [judged]
  cases hverdict : verdict e with
  | none => simp
  | some status =>
    have hmarked : property (js "status") (marked e status) = .str status :=
      (property_marked he.object status _).trans (if_pos rfl)
    dsimp only
    rw [hmarked]
    constructor
    · intro hsame
      exact absurd hsame.symm (hchanges status hverdict)
    · intro hnone
      cases hnone

/-! ### The graph that the enumeration leaves -/

/-- The record of an id is the old one, or one that has been reported. -/
theorem held_cases {e : JsValue} (he : recordById id (part.records prior) = some e) :
    (rt.held input prior part id = some e ∧ ¬ rt.Reported input part id) ∨
    ∃ p record, input.Reports part p record ∧ rt.Reported input part id ∧
      rt.held input prior part id = some (.obj record) := by
  rw [SweepRuntime.held, he]
  rcases asReported_cases rt.isDateTime part id (reported input.visited part) (some e) with
    ⟨hsame, hnone⟩ | ⟨record, hrecord, haccepted, hid, hheld⟩
  · refine .inl ⟨hsame, ?_⟩
    rintro ⟨p, record, hreports, haccepted, hid⟩
    exact hnone record (SweepInput.mem_reported.mpr ⟨p, hreports⟩) haccepted hid
  · obtain ⟨p, hreports⟩ := SweepInput.mem_reported.mp hrecord
    exact .inr ⟨p, record, hreports, ⟨p, record, hreports, haccepted, hid⟩, hheld⟩

/-- A record keeps its status in the enumeration just when it is active or has not been reported. -/
theorem held_status (hreports : ReportsAt input now) {e x : JsValue}
    (he : recordById id (part.records prior) = some e) (hx : rt.held input prior part id = some x) :
    property (js "status") x = property (js "status") e ↔
      (rt.Reported input part id → hasStatus (js "active") e = true) := by
  rcases held_cases he with ⟨hsame, hnot⟩ | ⟨p, record, hrecord, hreported, hsame⟩
  · obtain rfl : x = e := Option.some.inj (hx.symm.trans hsame)
    exact ⟨fun _ hreported => absurd hreported hnot, fun _ => rfl⟩
  · obtain rfl : x = .obj record := Option.some.inj (hx.symm.trans hsame)
    rw [property_obj, (hreports part p record hrecord).status]
    constructor
    · intro hstatus _
      rw [hasStatus_of_property hstatus.symm]
      exact decide_eq_true rfl
    · intro hactive
      have hstatus := hactive hreported
      rw [hasStatus] at hstatus
      cases hproperty : property (js "status") e with
      | str s =>
        rw [hproperty] at hstatus
        exact congrArg JsValue.str (of_decide_eq_true hstatus).symm
      | _ =>
        rw [hproperty] at hstatus
        cases hstatus

theorem endPlatform_eq (hreports : ReportsAt input now) (hvalid : ValidGraph rt.isDateTime prior)
    {endpoint : JsString} (h : property endpoint e = property endpoint x) :
    Reconciliation.endPlatform (rt.enumerate input prior).1.entities endpoint e =
      rt.endPlatform input prior endpoint x := by
  rw [Reconciliation.endPlatform, SweepRuntime.endPlatform, h]
  cases property endpoint x with
  | str i =>
    have hagree := SweepRuntime.agree_enumerate hreports hvalid .entities i
    change Agree .entities (List.find? (isId (.str i)) (rt.enumerate input prior).1.entities) _ at hagree
    dsimp only
    rw [← hagree.property_eq (List.mem_cons_self ..)]
    cases List.find? (isId (.str i)) (rt.enumerate input prior).1.entities <;> rfl
  | _ =>
    dsimp only
    rw [List.find?_eq_none.mpr]
    intro y _ hy
    cases hy

theorem edgePlatformId_eq (hreports : ReportsAt input now) (hvalid : ValidGraph rt.isDateTime prior)
    (h : ∀ k ∈ GraphPart.edges.reads, property k e = property k x) :
    Reconciliation.edgePlatformId (rt.enumerate input prior).1.entities e =
      rt.borrowedPlatform input prior x := by
  rw [Reconciliation.edgePlatformId, SweepRuntime.borrowedPlatform,
    endPlatform_eq hreports hvalid (h _ (by simp [GraphPart.reads])),
    endPlatform_eq hreports hvalid (h _ (by simp [GraphPart.reads]))]

/-! ### The frame -/

/-- A record keeps its status throughout just when the enumeration has left it and there is no
verdict on it. -/
theorem sameStatus_iff {current : GraphDocument} {verdict : JsValue → Option JsString} {e e' : JsValue}
    (hcurrent : recordById id (part.records current) = some e')
    (hpost : recordById id (part.records post) = some (judged verdict e')) (hform : WellFormed e')
    (hchanges : ∀ status, verdict e' = some status → property (js "status") e' ≠ .str status) :
    SameStatus part id e current ∧ SameStatus part id e post ↔
      property (js "status") e' = property (js "status") e ∧ verdict e' = none := by
  have hsame {doc : GraphDocument} {y : JsValue} (hy : recordById id (part.records doc) = some y) :
      SameStatus part id e doc ↔ property (js "status") y = property (js "status") e := by
    constructor
    · rintro ⟨z, hz, hstatus⟩
      obtain rfl : y = z := Option.some.inj (hy.symm.trans hz)
      exact hstatus
    · intro hstatus
      exact ⟨y, hy, hstatus⟩
  rw [hsame hcurrent, hsame hpost, and_congr_right_iff]
  intro hstatus
  rw [← hstatus]
  exact status_judged hform hchanges

/-- The record that the enumeration leaves, where one was before. -/
theorem held_record (hreports : ReportsAt input now) (hvalid : ValidGraph rt.isDateTime prior)
    (he : recordById id (part.records prior) = some e) :
    ∃ x e', rt.held input prior part id = some x ∧
      recordById id (part.records (rt.enumerate input prior).1) = some e' ∧
      (∀ k ∈ part.reads, property k e' = property k x) ∧ WellFormed e' := by
  have hx : ∃ x, rt.held input prior part id = some x := by
    rcases held_cases he with ⟨hheld, -⟩ | ⟨p, record, -, -, hheld⟩
    · exact ⟨e, hheld⟩
    · exact ⟨.obj record, hheld⟩
  obtain ⟨x, hx⟩ := hx
  obtain ⟨e', he', hreads⟩ := (SweepRuntime.agree_enumerate hreports hvalid part id).of_held hx
  have hform := ((rt.enumerates input prior).valid hvalid).wellFormed (recordById_mem he').1
  exact ⟨x, e', hx, he', hreads, hform⟩

theorem due_iff {succeeded : List PlatformSummary} {e' : JsValue}
    (hseen : property (js "last_seen") e' = property (js "last_seen") x)
    (hstatus : property (js "status") e' = property (js "status") x) :
    (hasStatus (js "gone") e' = false ∧ (rt.reconciliation input succeeded).degraded e' ≠ none) ↔
      rt.Due input x := by
  have hsame : (rt.reconciliation input succeeded).degraded e' = (rt.reconciliation input []).degraded x :=
    Reconciliation.degraded_congr hseen hstatus
  rw [SweepRuntime.Due, hsame, hasStatus, hasStatus, hstatus]

/-- There is a verdict on an entity just when its platform has been enumerated and it is due. -/
theorem entityVerdict_due {e' : JsValue} (hseen : property (js "last_seen") e' = property (js "last_seen") x)
    (hstatus : property (js "status") e' = property (js "status") x) :
    (rt.reconciliation input (rt.enumerate input prior).2).entityVerdict e' = none ↔
      (input.covers e' → ¬ rt.Due input x) := by
  rw [Reconciliation.entityVerdict_none, due_iff hseen hstatus, not_and]
  change (onPlatform (succeededPlatformIds (rt.enumerate input prior).2) e' = true → _) ↔ _
  rw [onPlatform_iff]

/-- There is a verdict on an edge just when the platform that it borrows has been enumerated and it is
due. -/
theorem edgeVerdict_due (hreports : ReportsAt input now) (hvalid : ValidGraph rt.isDateTime prior)
    {e' : JsValue} (hreads : ∀ k ∈ GraphPart.edges.reads, property k e' = property k x) :
    (rt.reconciliation input (rt.enumerate input prior).2).edgeVerdict (rt.enumerate input prior).1.entities
        e' = none ↔
      ∀ p, rt.borrowedPlatform input prior x = .str p → input.succeeded p → ¬ rt.Due input x := by
  rw [Reconciliation.edgeVerdict_none, edgePlatformId_eq hreports hvalid hreads,
    due_iff (hreads _ (by simp [GraphPart.reads])) (hreads _ (by simp [GraphPart.reads]))]
  constructor
  · intro hnot p hp hsucceeded hdue
    exact hnot ⟨⟨p, hp, (rt.mem_succeeded input prior p).mpr hsucceeded⟩, hdue⟩
  · rintro hspared ⟨⟨p, hp, hmem⟩, hdue⟩
    exact hspared p hp ((rt.mem_succeeded input prior p).mp hmem) hdue

theorem sameStatus_sweep (hreports : ReportsAt input now) (hvalid : ValidGraph rt.isDateTime prior)
    (he : recordById id (part.records prior) = some e) {e' : JsValue}
    (hx : rt.held input prior part id = some x)
    (he' : recordById id (part.records (rt.enumerate input prior).1) = some e')
    (hreads : ∀ k ∈ part.reads, property k e' = property k x) (hform : WellFormed e') :
    SameStatus part id e (rt.enumerate input prior).1 ∧ SameStatus part id e
        (reconciled (rt.reconciliation input (rt.enumerate input prior).2) (rt.enumerate input prior).1) ↔
      (rt.Reported input part id → hasStatus (js "active") e = true) ∧
        (rt.reconciliation input (rt.enumerate input prior).2).verdict (rt.enumerate input prior).1 part e' =
          none := by
  have hvalid' := (rt.enumerates input prior).valid hvalid
  have hpost := recordById_reconciled (rt.reconciliation input (rt.enumerate input prior).2) hvalid' part id
  rw [he', Option.map_some] at hpost
  have hstatus : property (js "status") e' = property (js "status") x := by
    apply hreads
    cases part <;> simp [GraphPart.reads]
  rw [sameStatus_iff he' hpost hform fun _ => Reconciliation.verdict_changes, hstatus,
    held_status hreports he hx]

theorem entity_kept (hreports : ReportsAt input now) (hvalid : ValidGraph rt.isDateTime prior)
    (he : recordById id prior.entities = some e) (hsilent : input.Silent e) :
    SameStatus .entities id e (rt.enumerate input prior).1 ∧ SameStatus .entities id e
        (reconciled (rt.reconciliation input (rt.enumerate input prior).2) (rt.enumerate input prior).1) ↔
      (rt.Reported input .entities id → hasStatus (js "active") e = true ∧
        ∀ x, rt.held input prior .entities id = some x → ¬ rt.Due input x) := by
  obtain ⟨x, e', hx, he', hreads, hform⟩ := @held_record rt input prior .entities id now e hreports hvalid he
  rw [@sameStatus_sweep rt input prior .entities id now e x hreports hvalid he e' hx he' hreads hform]
  change (_ ∧ Reconciliation.entityVerdict _ e' = none) ↔ _
  rw [entityVerdict_due (hreads _ (by simp [GraphPart.reads])) (hreads _ (by simp [GraphPart.reads]))]
  have hcovers : input.covers e' ↔ rt.Reported input .entities id := by
    rw [SweepInput.covers, hreads _ (List.mem_cons_self ..)]
    rcases @held_cases rt input prior .entities id e he with
      ⟨hheld, hnot⟩ | ⟨p, record, hrecord, hreported, hheld⟩
    · -- the record is the old one, whose platform is silent
      obtain rfl : x = e := Option.some.inj (hx.symm.trans hheld)
      obtain ⟨p, hp, hnone⟩ := hsilent
      constructor
      · rintro ⟨q, hq, hpq⟩
        rw [hp] at hpq
        cases hpq
        exact absurd hq hnone
      · exact fun hreported => absurd hreported hnot
    · obtain rfl : x = .obj record := Option.some.inj (hx.symm.trans hheld)
      have hp := (hreports .entities p record hrecord).platform rfl
      exact ⟨fun _ => hreported, fun _ => ⟨p, hrecord.succeeded, hp⟩⟩
  rw [hcovers]
  have hdue : (∀ y, rt.held input prior .entities id = some y → ¬ rt.Due input y) ↔ ¬ rt.Due input x := by
    rw [hx]
    exact ⟨fun h => h x rfl, fun h y hy => Option.some.inj hy ▸ h⟩
  rw [hdue]
  tauto

theorem edge_kept (hreports : ReportsAt input now) (hvalid : ValidGraph rt.isDateTime prior)
    (he : recordById id prior.edges = some e) :
    SameStatus .edges id e (rt.enumerate input prior).1 ∧ SameStatus .edges id e
        (reconciled (rt.reconciliation input (rt.enumerate input prior).2) (rt.enumerate input prior).1) ↔
      (rt.Reported input .edges id → hasStatus (js "active") e = true) ∧
        ∀ x p, rt.held input prior .edges id = some x → rt.borrowedPlatform input prior x = .str p →
          input.succeeded p → ¬ rt.Due input x := by
  obtain ⟨x, e', hx, he', hreads, hform⟩ := @held_record rt input prior .edges id now e hreports hvalid he
  rw [@sameStatus_sweep rt input prior .edges id now e x hreports hvalid he e' hx he' hreads hform,
    and_congr_right_iff]
  intro _
  change Reconciliation.edgeVerdict _ _ e' = none ↔ _
  rw [edgeVerdict_due hreports hvalid hreads]
  constructor
  · intro hspared y p hy
    obtain rfl : x = y := Option.some.inj (hx.symm.trans hy)
    exact hspared p
  · intro hspared p
    exact hspared x p hx

/-- A sweep whose platforms report what they have just seen leaves the statuses of the platforms that
it has not reached as they are, and those of the edges that end there, just when the reports and the
borrowed platforms spare them. -/
theorem sweep_keeps_silent (rt : SweepRuntime) (input : SweepInput) (now : JsString)
    (hreports : ReportsAt input now) (prior : GraphDocument) (hvalid : ValidGraph rt.isDateTime prior)
    (hunique : UniqueGraph prior) (cache : DedupCache) :
    ∃ result post cache', rt.sweep input prior cache = some (result, post, cache') ∧
      (KeepsSilent rt input prior post ↔ SparesSilent rt input prior) := by
  obtain ⟨result, cache', hsweep, -⟩ := sweep_eq input hvalid hunique cache
  refine ⟨result, _, cache', hsweep, ?_⟩
  constructor
  · intro hkeeps
    constructor
    · intro id e he hsilent
      exact (entity_kept hreports hvalid he hsilent).mp (hkeeps.entities id e he hsilent)
    · intro id e he htouches
      exact ((edge_kept hreports hvalid he).mp (hkeeps.edges id e he htouches)).1
    · intro id e he htouches
      exact ((edge_kept hreports hvalid he).mp (hkeeps.edges id e he htouches)).2
  · intro hspares
    constructor
    · intro id e he hsilent
      exact (entity_kept hreports hvalid he hsilent).mpr (hspares.entities id e he hsilent)
    · intro id e he htouches
      exact (edge_kept hreports hvalid he).mpr
        ⟨hspares.edges id e he htouches, hspares.borrowed id e he htouches⟩

/-! ### An edge to a platform that is down -/

def edgeRecord (source target seen : JsString) : Fields :=
  [(js "id", .str (js "backed-by:" ++ source ++ js ":" ++ target)), (js "from", .str source),
    (js "to", .str target), (js "type", .str (js "backed-by")), (js "discovered_at", .str seen),
    (js "last_seen", .str seen), (js "status", .str (js "active"))]

def vaultNode : Fields :=
  [(js "id", .str (js "node:vault:n1")), (js "kind", .str (js "node")), (js "name", .str (js "n1")),
    (js "attributes", .obj []), (js "source", .str (js "docker-swarm")), (js "platformId", .str (js "vault")),
    (js "discovered_at", .str nasSeen), (js "last_seen", .str nasSeen), (js "status", .str (js "active"))]

/-- A share of the NAS that is kept on a node of another platform -/
def backedUp : GraphDocument where
  entities := [.obj nasArray, .obj vaultNode]
  edges := [.obj (edgeRecord (js "storage-array:nas") (js "node:vault:n1") nasSeen)]

/-- The NAS answers, and the vault does not. -/
def vaultDown : SweepInput where
  sweepAt := laterSeen
  platformFilter := none
  platforms := [nasVisit [], ⟨js "vault", js "docker-swarm", .connectionFailed (js "timed out")⟩]
  saves _ := true

theorem backedUp_valid (gone : JsNumber) : ValidGraph (labSweeps gone).isDateTime backedUp := by
  intro part e he
  cases part with
  | entities =>
    rcases List.mem_cons.mp he with rfl | he
    · with_unfolding_all rfl
    · obtain rfl := List.mem_singleton.mp he
      with_unfolding_all rfl
  | edges =>
    obtain rfl := List.mem_singleton.mp he
    with_unfolding_all rfl

theorem backedUp_unique : UniqueGraph backedUp := by
  constructor
  · change (backedUp.entities.map idOf).Nodup
    decide +kernel
  · exact List.nodup_singleton _

theorem vaultDown_reports : ReportsAt vaultDown laterSeen := by
  rintro part p record ⟨q, hq, -, rfl, hrecord⟩
  rcases List.mem_cons.mp hq with rfl | hq
  · cases part <;> cases hrecord
  · obtain rfl := List.mem_singleton.mp hq
    cases part <;> cases hrecord

theorem sweep_keeps_silent_vault :
    ∃ result post cache', (labSweeps (.ofNat 1800000)).sweep vaultDown backedUp ⟨.ofNat 3600000, []⟩ =
        some (result, post, cache') ∧
      (KeepsSilent (labSweeps (.ofNat 1800000)) vaultDown backedUp post ↔
        SparesSilent (labSweeps (.ofNat 1800000)) vaultDown backedUp) :=
  sweep_keeps_silent _ _ laterSeen vaultDown_reports _ (backedUp_valid _) backedUp_unique _

theorem vault_silent : vaultDown.Silent (.obj vaultNode) := by
  refine ⟨js "vault", rfl, ?_⟩
  rintro ⟨q, hq, -, hp, entities, edges, hvisit⟩
  rcases List.mem_cons.mp hq with rfl | hq
  · exact absurd hp (by decide)
  · obtain rfl := List.mem_singleton.mp hq
    cases hvisit

/-- The edge borrows the platform of the NAS, and is gone after the sweep, though its other end has not
been reached. -/
theorem silent_edge_gone : ¬ ∀ (rt : SweepRuntime) (input : SweepInput) (prior : GraphDocument)
    (cache : DedupCache) (result : SweepResult) (post : GraphDocument) (cache' : DedupCache),
    ValidGraph rt.isDateTime prior → UniqueGraph prior →
    rt.sweep input prior cache = some (result, post, cache') → KeepsSilent rt input prior post := by
  intro h
  obtain ⟨result, cache', hsweep, -⟩ := sweep_eq vaultDown (backedUp_valid (.ofNat 1800000)) backedUp_unique
    ⟨.ofNat 3600000, []⟩
  have hkeeps := h _ _ _ _ _ _ _ (backedUp_valid _) backedUp_unique hsweep
  have htouches : vaultDown.TouchesSilent backedUp
      (.obj (edgeRecord (js "storage-array:nas") (js "node:vault:n1") nasSeen)) := by
    refine ⟨js "to", by simp, js "node:vault:n1", .obj vaultNode, ?_, ?_, vault_silent⟩ <;>
      with_unfolding_all rfl
  obtain ⟨-, e', he', hstatus⟩ := hkeeps.edges (js "backed-by:storage-array:nas:node:vault:n1") _
    (by with_unfolding_all rfl) htouches
  have hpost : recordById (js "backed-by:storage-array:nas:node:vault:n1") (GraphPart.edges.records
      (reconciled ((labSweeps (.ofNat 1800000)).reconciliation vaultDown
        ((labSweeps (.ofNat 1800000)).enumerate vaultDown backedUp).2)
        ((labSweeps (.ofNat 1800000)).enumerate vaultDown backedUp).1)) =
      some (marked (.obj (edgeRecord (js "storage-array:nas") (js "node:vault:n1") nasSeen))
        (js "gone")) := by
    with_unfolding_all rfl
  obtain rfl := Option.some.inj (hpost.symm.trans he')
  have hgone : property (js "status")
      (marked (.obj (edgeRecord (js "storage-array:nas") (js "node:vault:n1") nasSeen)) (js "gone")) =
        .str (js "gone") := by
    with_unfolding_all rfl
  rw [hgone] at hstatus
  have hactive : property (js "status")
      (.obj (edgeRecord (js "storage-array:nas") (js "node:vault:n1") nasSeen)) = .str (js "active") := by
    with_unfolding_all rfl
  rw [hactive] at hstatus
  exact absurd (JsValue.str.inj hstatus) (by decide)

end Homelab
