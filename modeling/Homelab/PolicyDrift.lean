import Homelab.EnumerationCalls
import Homelab.PolicyRules
import Homelab.SweepMachine

/-! Which parts of the graph the violations of the rules and the roles that the nodes host depend on. -/
namespace Homelab
open Js

/-! ### Placement in the graph -/

def isActive (e : JsValue) : Bool := equalsText (js "active") (property (js "status") e)

def placementTypes : List JsString := [js "runs-on", js "hosts"]

/-- An active entity of the graph has this id. -/
def hasActive (doc : GraphDocument) (id : JsString) : Bool :=
  doc.entities.any fun e => isActive e && textOf (js "id") e = id

/-- The edge places one active entity on another. -/
def isPlacement (doc : GraphDocument) (edge : JsValue) : Bool :=
  isActive edge && placementTypes.any (fun type => equalsText type (property (js "type") edge)) &&
    hasActive doc (textOf (js "from") edge) && hasActive doc (textOf (js "to") edge)

/-- The graph with nothing but the active entities and the edges that place them -/
def realGraph (doc : GraphDocument) : GraphDocument :=
  ⟨doc.entities.filter isActive, doc.edges.filter (isPlacement doc)⟩

/-- The rule, the node and the service that an observation is about -/
def violationOf (obs : Observation) : JsString × JsString × JsString :=
  (getOwnText (js "rule_id") obs, getOwnText (js "node_id") obs, getOwnText (js "service_id") obs)
where
  getOwnText (k : JsString) (obs : Observation) : JsString := (getOwn k (obs.details.getD [])).coerce

/-- The hosted roles of the node with this id, of which there are none when it is not in the graph -/
def TopologyDescriptor.hostedAt (topology : TopologyDescriptor) (id : JsString) : List JsString :=
  ((topology.nodes.find? fun n => n.id = id).map NodeFacts.hostedServiceRoles).getD []

/-- The violations that a scan reports and the roles that the nodes host are those of the real graph. -/
structure DependsOnPlacement (rt : PlacementRuntime) (input : ScanInput) (doc : GraphDocument) : Prop where
  violations : ∀ t, t ∈ (scanPolicies rt input (some doc) (some doc)).map violationOf ↔
    t ∈ (scanPolicies rt input (some (realGraph doc)) (some (realGraph doc))).map violationOf
  hosted : ∀ id, (analyze rt input.clock doc).hostedAt id =
    (analyze rt input.clock (realGraph doc)).hostedAt id

/-! ### Where it makes no difference -/

def leader (rt : PlacementRuntime) (services : List JsValue) : Option JsValue :=
  (sortById rt (textOf (js "id")) services).head?

/-- The services of the role are all placed here, the first of them being the same, if there are several. -/
def KeepsRole (rt : PlacementRuntime) (role : JsString) (services services' : List JsValue) : Prop :=
  1 < (ofRole role services).length →
    ofRole role services ⊆ services' ∧ leader rt (ofRole role services) = leader rt (ofRole role services')

def roleOf (svc : JsValue) : JsString := trim (attributeText (js "role") svc)

/-- What else is next to the node than what is placed on it makes no difference to the rules. -/
structure Unaffected (rt : PlacementRuntime) (p q : NodePlacement) : Prop where
  manager : js "manager" ∈ p.capabilityTags → p.services ⊆ q.services
  storage : js "storage" ∈ p.capabilityTags →
    p.services ⊆ q.services ∧ (js "storage" ∈ q.capabilityTags ∨ p.services = [])
  gpu : js "gpu" ∈ p.capabilityTags → js "gpu" ∈ q.capabilityTags ∨ ofRole (js "media") q.services = []
  media : js "gpu" ∉ p.capabilityTags → ofRole (js "media") p.services ⊆ q.services
  apart : ∀ role ∈ [js "media", js "arr-stack"], KeepsRole rt role p.services q.services
  hosted : ∀ svc ∈ p.services, roleOf svc ≠ [] → ∃ svc' ∈ q.services, roleOf svc' = roleOf svc

/-! ### Lists -/

/-- Two lists of which one has the members of the other differ past the first just when there are more. -/
theorem drop_one_same {α : Type} {l l' : List α} (hl : l.Nodup) (hl' : l'.Nodup) (hsub : l' ⊆ l) :
    (∀ a, a ∈ l.drop 1 ↔ a ∈ l'.drop 1) ↔ (1 < l.length → l ⊆ l' ∧ l.head? = l'.head?) := by
  have hle : l'.length ≤ l.length := (hl'.subperm hsub).length_le
  constructor
  · intro h hlong
    have htails : (l.drop 1).Perm (l'.drop 1) :=
      (List.perm_ext_iff_of_nodup hl.drop hl'.drop).mpr h
    have hlength := htails.length_eq
    rw [List.length_drop, List.length_drop] at hlength
    have hperm : l'.Perm l := (hl'.subperm hsub).perm_of_length_le (by omega)
    refine ⟨hperm.symm.subset, ?_⟩
    cases l with
    | nil => cases hlong
    | cons a as =>
      cases l' with
      | nil => exact absurd hperm.length_eq (Nat.zero_ne_add_one _)
      | cons b bs =>
        -- the head is what is missing from the tail
        have ha : a ∈ b :: bs := hperm.symm.subset (List.mem_cons_self ..)
        rcases List.mem_cons.mp ha with rfl | hin
        · rfl
        · exact absurd ((h a).mpr hin) (List.nodup_cons.mp hl).1
  · intro h a
    by_cases hlong : 1 < l.length
    · obtain ⟨hsub', hhead⟩ := h hlong
      have hperm : l.Perm l' := (List.perm_ext_iff_of_nodup hl hl').mpr fun x => ⟨@hsub' x, @hsub x⟩
      cases l with
      | nil => cases hlong
      | cons b bs =>
        cases l' with
        | nil => cases hhead
        | cons c cs =>
          obtain rfl := Option.some.inj hhead
          exact (List.Perm.cons_inv hperm).mem_iff
    · rw [List.drop_eq_nil_of_le (by omega), List.drop_eq_nil_of_le (by omega)]

variable {isDateTime : JsString → Bool} {doc : GraphDocument} {rt : PlacementRuntime} {e x y n edge : JsValue}
  {id nid role : JsString}

theorem mem_ofRole {services : List JsValue} :
    e ∈ ofRole role services ↔ e ∈ services ∧ attributeText (js "role") e = role := by
  rw [ofRole, List.mem_filter, decide_eq_true_eq]

theorem sortById_perm {α : Type} (rt : PlacementRuntime) (idOf : α → JsString) (l : List α) :
    (sortById rt idOf l).Perm l := List.mergeSort_perm ..

/-- The roles are the same when they have the same members. -/
theorem hostedServiceRoles_eq_iff {l l' : List JsValue} : hostedServiceRoles l = hostedServiceRoles l' ↔
    ∀ role, role ∈ hostedServiceRoles l ↔ role ∈ hostedServiceRoles l' := by
  constructor
  · intro h role
    rw [h]
  · intro h
    have hsorted (l : List JsValue) : (hostedServiceRoles l).Pairwise (· ≤ ·) := by
      refine (List.pairwise_mergeSort ?_ ?_ _).imp fun h => of_decide_eq_true h
      · intro a b c hab hbc
        exact decide_eq_true (List.le_trans (of_decide_eq_true hab) (of_decide_eq_true hbc))
      · intro a b
        rcases List.le_total a b with hle | hle
        · rw [decide_eq_true hle, Bool.true_or]
        · rw [decide_eq_true hle, Bool.or_true]
    have hnodup (l : List JsValue) : (hostedServiceRoles l).Nodup :=
      (List.mergeSort_perm _ _).nodup_iff.mpr (setOf_nodup _)
    apply List.Perm.eq_of_pairwise _ (hsorted l) (hsorted l')
    · exact (List.perm_ext_iff_of_nodup (hnodup l) (hnodup l')).mpr h
    · intro a b _ _ hab hba
      exact List.le_antisymm hab hba

theorem mem_hostedServiceRoles {l : List JsValue} : role ∈ hostedServiceRoles l ↔
    role ≠ [] ∧ ∃ svc ∈ l.filter (hasKind serviceKinds), roleOf svc = role := by
  rw [hostedServiceRoles, List.mem_mergeSort, mem_setOf, List.mem_filter, decide_eq_true_eq,
    and_comm, List.mem_map]
  rfl

/-! ### Neighbours in the real graph -/

theorem mem_neighborIds {edges : List JsValue} : nid ∈ neighborIds edges id ↔ ∃ edge ∈ edges,
    textOf (js "from") edge = id ∧ textOf (js "to") edge = nid ∨
      textOf (js "to") edge = id ∧ textOf (js "from") edge = nid := by
  have hone (p : Prop) [Decidable p] (s : JsString) : nid ∈ (if p then [s] else []) ↔ p ∧ s = nid := by
    split_ifs with hp
    · rw [List.mem_singleton, eq_comm, and_iff_right hp]
    · exact iff_of_false List.not_mem_nil fun h => hp h.1
  rw [neighborIds, mem_setOf, List.mem_flatMap]
  refine exists_congr fun edge => and_congr_right fun _ => ?_
  rw [List.mem_append, hone, hone]

theorem mem_neighborsOf (hvalid : ValidGraph isDateTime doc) (hunique : UniqueGraph doc) :
    x ∈ neighborsOf doc n ↔ x ∈ doc.entities ∧
      textOf (js "id") x ∈ neighborIds doc.edges (textOf (js "id") n) := by
  rw [neighborsOf, List.mem_filterMap]
  constructor
  · rintro ⟨nid, hnid, hfound⟩
    rw [priorById_eq hunique.1] at hfound
    obtain ⟨hmem, hid⟩ := recordById_mem hfound
    rw [textOf_id hid]
    exact ⟨hmem, hnid⟩
  · rintro ⟨hmem, hid⟩
    refine ⟨_, hid, ?_⟩
    rw [priorById_eq hunique.1]
    exact recordById_of_mem hunique.1 hmem (idOf_text hvalid hmem)

theorem realGraph_valid (hvalid : ValidGraph isDateTime doc) : ValidGraph isDateTime (realGraph doc) := by
  intro part e he
  cases part with
  | entities => exact hvalid .entities e (List.mem_of_mem_filter he)
  | edges => exact hvalid .edges e (List.mem_of_mem_filter he)

theorem realGraph_unique (hunique : UniqueGraph doc) : UniqueGraph (realGraph doc) :=
  ⟨hunique.1.sublist (List.filter_sublist.map _), hunique.2.sublist (List.filter_sublist.map _)⟩

theorem mem_realGraph : x ∈ (realGraph doc).entities ↔ x ∈ doc.entities ∧ isActive x = true := List.mem_filter

theorem neighbors_of_real (hvalid : ValidGraph isDateTime doc) (hunique : UniqueGraph doc)
    (h : x ∈ neighborsOf (realGraph doc) n) : x ∈ neighborsOf doc n := by
  obtain ⟨hx, hedge⟩ := (mem_neighborsOf (realGraph_valid hvalid) (realGraph_unique hunique)).mp h
  obtain ⟨edge, hmem, hends⟩ := mem_neighborIds.mp hedge
  apply (mem_neighborsOf hvalid hunique).mpr
  exact ⟨(mem_realGraph.mp hx).1, mem_neighborIds.mpr ⟨edge, List.mem_of_mem_filter hmem, hends⟩⟩

/-- Nothing is placed on a node that is not active. -/
theorem active_of_real (hvalid : ValidGraph isDateTime doc) (hunique : UniqueGraph doc)
    (hn : n ∈ doc.entities)
    (h : x ∈ neighborsOf (realGraph doc) n) : isActive n = true := by
  obtain ⟨-, hedge⟩ := (mem_neighborsOf (realGraph_valid hvalid) (realGraph_unique hunique)).mp h
  obtain ⟨edge, hmem, hends⟩ := mem_neighborIds.mp hedge
  have hplaced : isPlacement doc edge = true := (List.mem_filter.mp hmem).2
  rw [isPlacement, Bool.and_eq_true, Bool.and_eq_true] at hplaced
  obtain ⟨⟨-, hfrom⟩, hto⟩ := hplaced
  have hactive : hasActive doc (textOf (js "id") n) = true := by
    rcases hends with ⟨hid, -⟩ | ⟨hid, -⟩
    · rwa [hid] at hfrom
    · rwa [hid] at hto
  obtain ⟨y, hy, hsame⟩ := List.any_eq_true.mp hactive
  rw [Bool.and_eq_true, decide_eq_true_eq] at hsame
  rw [← entity_of_id hvalid hunique hy hn hsame.2]
  exact hsame.1

theorem neighborsOf_nodup (hunique : UniqueGraph doc) : (neighborsOf doc n).Nodup := by
  refine (setOf_nodup _).filterMap ?_
  intro a b x ha hb
  rw [Option.mem_def, priorById_eq hunique.1] at ha hb
  exact (textOf_id (recordById_mem ha).2).symm.trans (textOf_id (recordById_mem hb).2)

/-! ### Tags -/

theorem mem_tag (tag other : JsString) (b : Bool) :
    tag ∈ (if b then [other] else []) ↔ b = true ∧ tag = other := by
  cases b with
  | true => simp
  | false => simp

section Tags

variable {neighbors neighbors' : List JsValue}

theorem mem_manager : js "manager" ∈ inferCapabilityTags rt e neighbors ↔ isManager rt e = true := by
  simp +decide only [inferCapabilityTags, List.mem_append, mem_tag, and_false, and_true, false_or, or_false]

theorem mem_storage : js "storage" ∈ inferCapabilityTags rt e neighbors ↔ isStorage e neighbors = true := by
  simp +decide only [inferCapabilityTags, List.mem_append, mem_tag, and_false, and_true, false_or, or_false]

theorem mem_gpu : js "gpu" ∈ inferCapabilityTags rt e neighbors ↔ hasGpu e neighbors = true := by
  simp +decide only [inferCapabilityTags, List.mem_append, mem_tag, and_false, and_true, false_or, or_false]

theorem any_mono {kinds : List JsString} (hsub : neighbors' ⊆ neighbors)
    (h : neighbors'.any (hasKind kinds) = true) : neighbors.any (hasKind kinds) = true := by
  obtain ⟨x, hx, hkind⟩ := List.any_eq_true.mp h
  exact List.any_eq_true.mpr ⟨x, hsub hx, hkind⟩

theorem hasGpu_mono (hsub : neighbors' ⊆ neighbors) (h : hasGpu e neighbors' = true) :
    hasGpu e neighbors = true := by
  rw [hasGpu, Bool.or_eq_true] at h ⊢
  exact h.imp_right (any_mono hsub)

theorem isStorage_mono (hsub : neighbors' ⊆ neighbors) (h : isStorage e neighbors' = true) :
    isStorage e neighbors = true := by
  rw [isStorage, hasArray, Bool.or_eq_true, Bool.or_eq_true, Bool.or_eq_true, Bool.or_eq_true] at h ⊢
  exact h.imp (Or.imp_right (any_mono hsub)) (Or.imp_right (any_mono hsub))

end Tags

/-- One placement of a node is of less than the other, with the tags that come of it. -/
structure Narrower (q p : NodePlacement) : Prop where
  services : q.services ⊆ p.services
  nodup : p.services.Nodup ∧ q.services.Nodup
  manager : js "manager" ∈ q.capabilityTags ↔ js "manager" ∈ p.capabilityTags
  storage : js "storage" ∈ q.capabilityTags → js "storage" ∈ p.capabilityTags
  gpu : js "gpu" ∈ q.capabilityTags → js "gpu" ∈ p.capabilityTags

theorem narrower_real (hvalid : ValidGraph isDateTime doc) (hunique : UniqueGraph doc) (n : JsValue) :
    Narrower (nodePlacement rt (realGraph doc) n) (nodePlacement rt doc n) := by
  have hsub : neighborsOf (realGraph doc) n ⊆ neighborsOf doc n := fun _ => neighbors_of_real hvalid hunique
  constructor
  · intro x hx
    obtain ⟨hmem, hkind⟩ := List.mem_filter.mp hx
    exact List.mem_filter.mpr ⟨hsub hmem, hkind⟩
  · exact ⟨(neighborsOf_nodup hunique).filter _, (neighborsOf_nodup (realGraph_unique hunique)).filter _⟩
  · exact mem_manager.trans mem_manager.symm
  · exact fun h => mem_storage.mpr (isStorage_mono hsub (mem_storage.mp h))
  · exact fun h => mem_gpu.mpr (hasGpu_mono hsub (mem_gpu.mp h))

/-! ### What each rule reports -/

def violators (rt : PlacementRuntime) (rule : PolicyRule) (p : NodePlacement) : List JsValue :=
  (evaluateRule rt rule p).map Violation.service

def allRules : List PolicyRule := buildInvariantRules ++ [storageArrayProtection, prodConcurrentDeployQuota]

section Rules

variable {p q : NodePlacement} {rule : PolicyRule} {capability : JsString} {maxPerNode : ℕ}

theorem services_onTaggedNode : (onTaggedNode rule capability p).map Violation.service =
    if capability ∈ p.capabilityTags then p.services else [] := by
  rw [onTaggedNode]
  by_cases h : capability ∈ p.capabilityTags
  · rw [List.contains_iff_mem.mpr h, if_pos h]
    exact (List.map_map).trans (List.map_id _)
  · rw [Bool.eq_false_iff.mpr fun hc => h (List.contains_iff_mem.mp hc), if_neg h]
    rfl

theorem services_withoutCapability : (withoutCapability rule role capability p).map Violation.service =
    if capability ∈ p.capabilityTags then [] else ofRole role p.services := by
  rw [withoutCapability]
  by_cases h : capability ∈ p.capabilityTags
  · rw [List.contains_iff_mem.mpr h, if_pos h]
    rfl
  · rw [Bool.eq_false_iff.mpr fun hc => h (List.contains_iff_mem.mp hc), if_neg h]
    exact (List.map_map).trans (List.map_id _)

/-- There is nothing past the limit when it is kept. -/
theorem services_overLimit : (overLimit rt rule role maxPerNode p).map Violation.service =
    (sortById rt (textOf (js "id")) (ofRole role p.services)).drop maxPerNode := by
  rw [overLimit]
  split_ifs with h
  · rw [List.drop_eq_nil_of_le]
    · rfl
    · exact (sortById_perm rt _ _).length_eq.trans_le h
  · exact (List.map_map).trans (List.map_id _)

theorem violators_manager : violators rt noWorkloadsOnManager p =
    if js "manager" ∈ p.capabilityTags then p.services else [] := services_onTaggedNode

theorem violators_storage : violators rt storageArrayProtection p =
    if js "storage" ∈ p.capabilityTags then p.services else [] := services_onTaggedNode

theorem violators_gpu : violators rt gpuRequiredForMedia p =
    if js "gpu" ∈ p.capabilityTags then [] else ofRole (js "media") p.services := services_withoutCapability

theorem violators_media : violators rt mediaAntiAffinity p =
    (sortById rt (textOf (js "id")) (ofRole (js "media") p.services)).drop 1 := services_overLimit

theorem violators_arrStack : violators rt arrStackAntiAffinity p =
    (sortById rt (textOf (js "id")) (ofRole (js "arr-stack") p.services)).drop 1 := services_overLimit

/-- The other rules are not about what is placed where. -/
theorem violators_other (h : rule ∈ allRules) : rule ∈ [noWorkloadsOnManager, storageArrayProtection,
    gpuRequiredForMedia, mediaAntiAffinity, arrStackAntiAffinity] ∨ ∀ p, violators rt rule p = [] := by
  simp only [allRules, buildInvariantRules, List.cons_append, List.nil_append, List.mem_cons,
    List.not_mem_nil,
    or_false] at h ⊢
  rcases h with rfl | rfl | rfl | rfl | rfl | rfl | rfl | rfl | rfl | rfl | rfl <;>
    first | exact .inr fun _ => rfl | simp

theorem violators_subset : violators rt rule p ⊆ p.services := by
  intro svc hsvc
  rw [violators, evaluateRule] at hsvc
  split_ifs at hsvc
  · rw [services_onTaggedNode] at hsvc
    split_ifs at hsvc with h
    · exact hsvc
    · cases hsvc
  · rw [services_withoutCapability] at hsvc
    split_ifs at hsvc with h
    · cases hsvc
    · exact (mem_ofRole.mp hsvc).1
  · cases hsvc
  · cases hsvc
  · rw [services_overLimit] at hsvc
    exact (mem_ofRole.mp ((sortById_perm rt _ _).subset (List.mem_of_mem_drop hsvc))).1
  · cases hsvc

/-! ### One node -/

theorem same_if {c d : Prop} [Decidable c] [Decidable d] {l l' : List JsValue} (hsub : l' ⊆ l) (hd : d → c) :
    (∀ a, a ∈ (if c then l else []) ↔ a ∈ if d then l' else []) ↔ (c → l ⊆ l' ∧ (d ∨ l = [])) := by
  by_cases hc : c
  · rw [if_pos hc]
    by_cases hd' : d
    · rw [if_pos hd']
      exact ⟨fun h _ => ⟨fun a => (h a).mp, .inl hd'⟩, fun h a => ⟨fun ha => (h hc).1 ha, fun ha => hsub ha⟩⟩
    · rw [if_neg hd']
      constructor
      · intro h _
        have hnil : l = [] := List.eq_nil_iff_forall_not_mem.mpr fun a ha => List.not_mem_nil ((h a).mp ha)
        exact ⟨hnil ▸ List.nil_subset _, .inr hnil⟩
      · intro h
        rw [(h hc).2.resolve_left hd']
        exact fun a => Iff.rfl
  · rw [if_neg hc, if_neg (mt hd hc)]
    exact ⟨fun _ h => absurd h hc, fun _ a => Iff.rfl⟩

theorem ofRole_subset {l l' : List JsValue} : ofRole role l ⊆ ofRole role l' ↔ ofRole role l ⊆ l' := by
  constructor
  · intro h a ha
    exact (mem_ofRole.mp (h ha)).1
  · intro h a ha
    exact mem_ofRole.mpr ⟨h ha, (mem_ofRole.mp ha).2⟩

def SameViolators (rt : PlacementRuntime) (rule : PolicyRule) (p q : NodePlacement) : Prop :=
  ∀ svc, svc ∈ violators rt rule p ↔ svc ∈ violators rt rule q

theorem sameManager_iff (h : Narrower q p) : SameViolators rt noWorkloadsOnManager p q ↔
    (js "manager" ∈ p.capabilityTags → p.services ⊆ q.services) := by
  rw [SameViolators, violators_manager, violators_manager, same_if h.services h.manager.mp]
  refine forall_congr' fun hp => ?_
  exact and_iff_left (.inl (h.manager.mpr hp))

theorem sameStorage_iff (h : Narrower q p) : SameViolators rt storageArrayProtection p q ↔
    (js "storage" ∈ p.capabilityTags →
      p.services ⊆ q.services ∧ (js "storage" ∈ q.capabilityTags ∨ p.services = [])) := by
  rw [SameViolators, violators_storage, violators_storage, same_if h.services h.storage]

theorem sameGpu_iff (h : Narrower q p) : SameViolators rt gpuRequiredForMedia p q ↔
    (js "gpu" ∈ p.capabilityTags → js "gpu" ∈ q.capabilityTags ∨ ofRole (js "media") q.services = []) ∧
      (js "gpu" ∉ p.capabilityTags → ofRole (js "media") p.services ⊆ q.services) := by
  rw [SameViolators, violators_gpu, violators_gpu]
  by_cases hp : js "gpu" ∈ p.capabilityTags
  · rw [if_pos hp, and_iff_left fun hnot => absurd hp hnot, forall_prop_of_true hp]
    by_cases hq : js "gpu" ∈ q.capabilityTags
    · rw [if_pos hq]
      exact iff_of_true (fun _ => Iff.rfl) (.inl hq)
    · rw [if_neg hq, or_iff_right hq, List.eq_nil_iff_forall_not_mem]
      exact forall_congr' fun svc => iff_comm.trans (iff_false_right List.not_mem_nil)
  · -- without the tag there, it is missing here too
    rw [if_neg hp, if_neg (mt h.gpu hp), and_iff_right fun hpos => absurd hpos hp, forall_prop_of_true hp]
    constructor
    · intro hsame svc hsvc
      exact (mem_ofRole.mp ((hsame svc).mp hsvc)).1
    · intro hsub svc
      rw [mem_ofRole, mem_ofRole]
      exact and_congr_left fun hrole =>
        ⟨fun hsvc => hsub (mem_ofRole.mpr ⟨hsvc, hrole⟩), fun hsvc => h.services hsvc⟩

theorem sameExcess_iff (h : Narrower q p) :
    (∀ a, a ∈ (sortById rt (textOf (js "id")) (ofRole role p.services)).drop 1 ↔
      a ∈ (sortById rt (textOf (js "id")) (ofRole role q.services)).drop 1) ↔
        KeepsRole rt role p.services q.services := by
  have hperm := sortById_perm rt (textOf (js "id")) (ofRole role p.services)
  have hperm' := sortById_perm rt (textOf (js "id")) (ofRole role q.services)
  have hsub : ofRole role q.services ⊆ ofRole role p.services :=
    ofRole_subset.mpr fun a ha => h.services (mem_ofRole.mp ha).1
  rw [drop_one_same (hperm.nodup_iff.mpr (h.nodup.1.filter _)) (hperm'.nodup_iff.mpr (h.nodup.2.filter _))
    (fun a ha => hperm.mem_iff.mpr (hsub (hperm'.mem_iff.mp ha))), hperm.length_eq, hperm.subset_congr_left,
    hperm'.subset_congr_right, ofRole_subset]
  rfl

theorem sameMedia_iff (h : Narrower q p) : SameViolators rt mediaAntiAffinity p q ↔
    KeepsRole rt (js "media") p.services q.services := by
  rw [SameViolators, violators_media, violators_media]
  exact sameExcess_iff h

theorem sameArrStack_iff (h : Narrower q p) : SameViolators rt arrStackAntiAffinity p q ↔
    KeepsRole rt (js "arr-stack") p.services q.services := by
  rw [SameViolators, violators_arrStack, violators_arrStack]
  exact sameExcess_iff h

theorem sameRules_iff : (∀ rule ∈ allRules, SameViolators rt rule p q) ↔
    SameViolators rt noWorkloadsOnManager p q ∧ SameViolators rt storageArrayProtection p q ∧
      SameViolators rt gpuRequiredForMedia p q ∧ SameViolators rt mediaAntiAffinity p q ∧
        SameViolators rt arrStackAntiAffinity p q := by
  constructor
  · intro h
    refine ⟨h _ ?_, h _ ?_, h _ ?_, h _ ?_, h _ ?_⟩ <;> simp [allRules, buildInvariantRules]
  · rintro ⟨hmanager, hstorage, hgpu, hmedia, harr⟩ rule hrule
    rcases violators_other hrule with hin | hnone
    · simp only [List.mem_cons, List.not_mem_nil, or_false] at hin
      rcases hin with rfl | rfl | rfl | rfl | rfl
      · exact hmanager
      · exact hstorage
      · exact hgpu
      · exact hmedia
      · exact harr
    · intro svc
      rw [hnone, hnone]

/-- The rules find the same services, and the roles are the same, just when nothing is affected. -/
theorem unaffected_iff (h : Narrower q p) : (∀ rule ∈ allRules, SameViolators rt rule p q) ∧
      (∀ svc ∈ p.services, roleOf svc ≠ [] → ∃ svc' ∈ q.services, roleOf svc' = roleOf svc) ↔
    Unaffected rt p q := by
  rw [sameRules_iff, sameManager_iff h, sameStorage_iff h, sameGpu_iff h, sameMedia_iff h, sameArrStack_iff h]
  constructor
  · rintro ⟨⟨hmanager, hstorage, ⟨hgpu, hmedia⟩, hapart, hapart'⟩, hhosted⟩
    refine ⟨hmanager, hstorage, hgpu, hmedia, ?_, hhosted⟩
    intro role hrole
    rcases List.mem_cons.mp hrole with rfl | hrole
    · exact hapart
    · rw [List.mem_singleton.mp hrole]
      exact hapart'
  · intro hun
    have hmedia := hun.apart (js "media") (List.mem_cons_self ..)
    have harr := hun.apart (js "arr-stack") (List.mem_cons_of_mem _ (List.mem_singleton_self _))
    exact ⟨⟨hun.manager, hun.storage, ⟨hun.gpu, hun.media⟩, hmedia, harr⟩, hun.hosted⟩

end Rules

/-! ### What a scan reports -/

theorem violationOf_observation (platform : JsString) (stamp : Stamp) (v : Violation) :
    violationOf (makeViolationObservation platform stamp v) =
      (v.rule.id, textOf (js "id") v.node, textOf (js "id") v.service) := by
  with_unfolding_all rfl

theorem mem_scanPolicies {input : ScanInput} {t : JsString × JsString × JsString} :
    t ∈ (scanPolicies rt input (some doc) (some doc)).map violationOf ↔
      ∃ v ∈ evaluate rt input.clock doc doc,
        t = (v.rule.id, textOf (js "id") v.node, textOf (js "id") v.service) := by
  rw [List.mem_map]
  constructor
  · rintro ⟨obs, hobs, rfl⟩
    obtain ⟨i, hi, rfl⟩ := List.mem_mapIdx.mp hobs
    exact ⟨_, List.getElem_mem hi, violationOf_observation _ _ _⟩
  · rintro ⟨v, hv, rfl⟩
    obtain ⟨i, hi, rfl⟩ := List.mem_iff_getElem.mp hv
    exact ⟨_, List.mem_mapIdx.mpr ⟨i, hi, rfl⟩, violationOf_observation _ _ _⟩

theorem of_evaluateRule {rule : PolicyRule} {p : NodePlacement} {v : Violation}
    (h : v ∈ evaluateRule rt rule p) : v.rule = rule ∧ v.node = p.entity := by
  rw [evaluateRule] at h
  split_ifs at h
  · rw [onTaggedNode] at h
    split_ifs at h
    · cases h
    · obtain ⟨svc, -, rfl⟩ := List.mem_map.mp h
      exact ⟨rfl, rfl⟩
  · rw [withoutCapability] at h
    split_ifs at h
    · cases h
    · obtain ⟨svc, -, rfl⟩ := List.mem_map.mp h
      exact ⟨rfl, rfl⟩
  · cases h
  · cases h
  · rw [overLimit] at h
    split_ifs at h
    · cases h
    · obtain ⟨svc, -, rfl⟩ := List.mem_map.mp h
      exact ⟨rfl, rfl⟩
  · cases h

/-- The violations of the rules at the nodes are all that is reported. -/
theorem mem_reported {input : ScanInput} {t : JsString × JsString × JsString} :
    t ∈ (scanPolicies rt input (some doc) (some doc)).map violationOf ↔
      ∃ rule ∈ generate (analyze rt input.clock doc), ∃ n ∈ doc.entities.filter (hasKind nodeKinds),
        ∃ svc ∈ violators rt rule (nodePlacement rt doc n), t =
          (rule.id, textOf (js "id") n, textOf (js "id") svc) := by
  rw [mem_scanPolicies]
  constructor
  · rintro ⟨v, hv, rfl⟩
    obtain ⟨rule, hrule, hv⟩ := List.mem_flatMap.mp hv
    obtain ⟨p, hp, hv⟩ := List.mem_flatMap.mp hv
    obtain ⟨n, hn, rfl⟩ := List.mem_map.mp hp
    obtain ⟨rfl, hnode⟩ := of_evaluateRule hv
    rw [show v.node = n from hnode]
    exact ⟨v.rule, hrule, n, hn, v.service, List.mem_map_of_mem hv, rfl⟩
  · rintro ⟨rule, hrule, n, hn, svc, hsvc, rfl⟩
    obtain ⟨v, hv, rfl⟩ := List.mem_map.mp hsvc
    obtain ⟨rfl, hnode⟩ := of_evaluateRule hv
    refine ⟨v, ?_, ?_⟩
    · exact List.mem_flatMap.mpr ⟨v.rule, hrule, List.mem_flatMap.mpr ⟨_, List.mem_map_of_mem hn, hv⟩⟩
    · rw [show v.node = n from hnode]

/-- A rule that finds something at a node is among the rules. -/
theorem mem_generate {input : ScanInput} {rule : PolicyRule} {svc : JsValue} (hrule : rule ∈ allRules)
    (hn : n ∈ doc.entities.filter (hasKind nodeKinds))
    (hsvc : svc ∈ violators rt rule (nodePlacement rt doc n)) :
    rule ∈ generate (analyze rt input.clock doc) := by
  rw [generate, List.mem_append]
  rcases List.mem_append.mp hrule with hinvariant | hderived
  · exact .inl hinvariant
  · right
    rw [List.mem_cons, List.mem_singleton] at hderived
    rcases hderived with rfl | rfl
    · -- the node has the tag that the rule is made for
      rw [violators_storage] at hsvc
      split_ifs at hsvc with htag
      · have hany : (analyze rt input.clock doc).nodes.any
            (fun n => n.capabilityTags.contains (js "storage")) = true := by
          rw [List.any_eq_true]
          refine ⟨nodeFacts rt doc n, ?_, List.contains_iff_mem.mpr htag⟩
          exact (sortById_perm rt _ _).mem_iff.mpr (List.mem_map_of_mem hn)
        rw [buildTopologyDerivedRules, if_pos hany]
        exact List.mem_append_left _ (List.mem_singleton_self _)
      · cases hsvc
    · cases hsvc

theorem generate_subset (topology : TopologyDescriptor) : generate topology ⊆ allRules := by
  intro rule hrule
  rw [generate, List.mem_append, buildTopologyDerivedRules, List.mem_append] at hrule
  rw [allRules, List.mem_append, List.mem_cons, List.mem_singleton]
  refine hrule.imp_right (Or.imp ?_ ?_)
  · intro h
    split_ifs at h
    · exact List.mem_singleton.mp h
    · cases h
  · intro h
    split_ifs at h
    · exact List.mem_singleton.mp h
    · cases h

theorem rule_of_id {rule rule' : PolicyRule} (h : rule ∈ allRules) (h' : rule' ∈ allRules)
    (hid : rule.id = rule'.id) : rule = rule' := by
  have hnodup : (allRules.map PolicyRule.id).Nodup := by decide
  exact List.inj_on_of_nodup_map hnodup h h' hid

/-! ### The two graphs -/

theorem placed_mem (hvalid : ValidGraph isDateTime doc) (hunique : UniqueGraph doc) {rule : PolicyRule}
    (h : x ∈ violators rt rule (nodePlacement rt doc n)) : x ∈ neighborsOf doc n ∧ x ∈ doc.entities := by
  have hneighbor := List.mem_of_mem_filter (violators_subset h)
  exact ⟨hneighbor, ((mem_neighborsOf hvalid hunique).mp hneighbor).1⟩

/-- By the ids that an observation has, it is the one that its rule makes of its node and service. -/
theorem reported_ids (rt : PlacementRuntime) (input : ScanInput) {d : GraphDocument}
    (hvalid : ValidGraph isDateTime doc)
    (hunique : UniqueGraph doc) (hd : ValidGraph isDateTime d) (hd' : UniqueGraph d)
    (hsub : d.entities ⊆ doc.entities) {rule : PolicyRule} (hrule : rule ∈ allRules) (hn : n ∈ doc.entities)
    (hx : x ∈ doc.entities) :
    (rule.id, textOf (js "id") n, textOf (js "id") x) ∈
        (scanPolicies rt input (some d) (some d)).map violationOf ↔
      n ∈ d.entities.filter (hasKind nodeKinds) ∧ x ∈ violators rt rule (nodePlacement rt d n) := by
  rw [mem_reported]
  constructor
  · rintro ⟨rule', hrule', n', hn', svc, hsvc, h⟩
    obtain ⟨hid, hnode, hservice⟩ := Prod.ext_iff.mp h |>.imp_right Prod.ext_iff.mp
    obtain rfl := rule_of_id hrule (generate_subset _ hrule') hid
    obtain rfl := entity_of_id hvalid hunique hn (hsub (List.mem_of_mem_filter hn')) hnode
    obtain rfl := entity_of_id hvalid hunique hx (hsub (placed_mem hd hd' hsvc).2) hservice
    exact ⟨hn', hsvc⟩
  · rintro ⟨hn', hsvc⟩
    exact ⟨rule, mem_generate hrule hn' hsvc, n, hn', x, hsvc, rfl⟩

theorem sameReports_iff {input : ScanInput} (hvalid : ValidGraph isDateTime doc) (hunique : UniqueGraph doc) :
    (∀ t, t ∈ (scanPolicies rt input (some doc) (some doc)).map violationOf ↔
        t ∈ (scanPolicies rt input (some (realGraph doc)) (some (realGraph doc))).map violationOf) ↔
      ∀ n ∈ doc.entities.filter (hasKind nodeKinds), ∀ rule ∈ allRules,
        SameViolators rt rule (nodePlacement rt doc n) (nodePlacement rt (realGraph doc) n) := by
  have hvalid' := realGraph_valid hvalid
  have hunique' := realGraph_unique hunique
  have hsub : (realGraph doc).entities ⊆ doc.entities := fun y hy => (mem_realGraph.mp hy).1
  -- a node on which something is placed is in the real graph
  have hreal {rule : PolicyRule} {n svc : JsValue} (hn : n ∈ doc.entities.filter (hasKind nodeKinds))
      (hsvc : svc ∈ violators rt rule (nodePlacement rt (realGraph doc) n)) :
      n ∈ (realGraph doc).entities.filter (hasKind nodeKinds) := by
    obtain ⟨hmem, hkind⟩ := List.mem_filter.mp hn
    have hactive := active_of_real hvalid hunique hmem (placed_mem hvalid' hunique' hsvc).1
    exact List.mem_filter.mpr ⟨mem_realGraph.mpr ⟨hmem, hactive⟩, hkind⟩
  constructor
  · intro h n hn rule hrule svc
    have hmem := List.mem_of_mem_filter hn
    constructor
    · intro hsvc
      have hids := reported_ids rt input hvalid hunique hvalid hunique (List.Subset.refl _) hrule hmem
        (placed_mem hvalid hunique hsvc).2
      have hids' := reported_ids rt input hvalid hunique hvalid' hunique' hsub hrule hmem
        (placed_mem hvalid hunique hsvc).2
      exact (hids'.mp ((h _).mp (hids.mpr ⟨hn, hsvc⟩))).2
    · intro hsvc
      have hx := hsub (placed_mem hvalid' hunique' hsvc).2
      have hids := reported_ids rt input hvalid hunique hvalid hunique (List.Subset.refl _) hrule hmem hx
      have hids' := reported_ids rt input hvalid hunique hvalid' hunique' hsub hrule hmem hx
      exact (hids.mp ((h _).mpr (hids'.mpr ⟨hreal hn hsvc, hsvc⟩))).2
  · intro h t
    rw [mem_reported, mem_reported]
    constructor
    · rintro ⟨rule, hrule, n, hn, svc, hsvc, rfl⟩
      have hin := generate_subset _ hrule
      have hsvc' := (h n hn rule hin svc).mp hsvc
      exact ⟨rule, mem_generate hin (hreal hn hsvc') hsvc', n, hreal hn hsvc', svc, hsvc', rfl⟩
    · rintro ⟨rule, hrule, n, hn, svc, hsvc, rfl⟩
      have hin := generate_subset _ hrule
      have hn' : n ∈ doc.entities.filter (hasKind nodeKinds) := by
        obtain ⟨hmem, hkind⟩ := List.mem_filter.mp hn
        exact List.mem_filter.mpr ⟨hsub hmem, hkind⟩
      have hsvc' := (h n hn' rule hin svc).mpr hsvc
      exact ⟨rule, mem_generate hin hn' hsvc', n, hn', svc, hsvc', rfl⟩

theorem find_of_unique {α : Type} {p : α → Bool} {l : List α} {a : α} (ha : a ∈ l) (hp : p a = true)
    (hunique : ∀ b ∈ l, p b = true → b = a) : l.find? p = some a := by
  cases h : l.find? p with
  | none => exact absurd hp (List.find?_eq_none.mp h a ha)
  | some b => rw [hunique b (List.mem_of_find?_eq_some h) (List.find?_some h)]

theorem hostedAt_node (hvalid : ValidGraph isDateTime doc) (hunique : UniqueGraph doc) (clock : JsString)
    (hn : n ∈ doc.entities.filter (hasKind nodeKinds)) :
    (analyze rt clock doc).hostedAt (textOf (js "id") n) = hostedServiceRoles (neighborsOf doc n) := by
  have hfound : (analyze rt clock doc).nodes.find? (fun f => f.id = textOf (js "id") n) =
      some (nodeFacts rt doc n) := by
    apply find_of_unique
    · exact (sortById_perm rt _ _).mem_iff.mpr (List.mem_map_of_mem hn)
    · exact decide_eq_true rfl
    · intro f hf hid
      obtain ⟨y, hy, rfl⟩ := List.mem_map.mp ((sortById_perm rt _ _).mem_iff.mp hf)
      rw [entity_of_id hvalid hunique (List.mem_of_mem_filter hy) (List.mem_of_mem_filter hn)
        (of_decide_eq_true hid)]
  rw [TopologyDescriptor.hostedAt, hfound]
  rfl

theorem hostedAt_none (clock : JsString)
    (h : ∀ n ∈ doc.entities.filter (hasKind nodeKinds), textOf (js "id") n ≠ id) :
    (analyze rt clock doc).hostedAt id = [] := by
  have hnone : (analyze rt clock doc).nodes.find? (fun f => f.id = id) = none := by
    rw [List.find?_eq_none]
    intro f hf hid
    obtain ⟨y, hy, rfl⟩ := List.mem_map.mp ((sortById_perm rt _ _).mem_iff.mp hf)
    exact h y hy (of_decide_eq_true hid)
  rw [TopologyDescriptor.hostedAt, hnone]
  rfl

theorem sameHosted_iff (hvalid : ValidGraph isDateTime doc) (hunique : UniqueGraph doc) (clock : JsString) :
    (∀ id, (analyze rt clock doc).hostedAt id = (analyze rt clock (realGraph doc)).hostedAt id) ↔
      ∀ n ∈ doc.entities.filter (hasKind nodeKinds),
        hostedServiceRoles (neighborsOf doc n) = hostedServiceRoles (neighborsOf (realGraph doc) n) := by
  have hvalid' := realGraph_valid hvalid
  have hunique' := realGraph_unique hunique
  have hreal {n : JsValue} (hn : n ∈ doc.entities.filter (hasKind nodeKinds)) :
      (analyze rt clock (realGraph doc)).hostedAt (textOf (js "id") n) =
        hostedServiceRoles (neighborsOf (realGraph doc) n) := by
    obtain ⟨hmem, hkind⟩ := List.mem_filter.mp hn
    by_cases hactive : isActive n = true
    · exact hostedAt_node hvalid' hunique' clock
        (List.mem_filter.mpr ⟨mem_realGraph.mpr ⟨hmem, hactive⟩, hkind⟩)
    · -- a node that is not active is absent there, and has no neighbours
      have hnone : neighborsOf (realGraph doc) n = [] :=
        List.eq_nil_iff_forall_not_mem.mpr fun x hx => hactive (active_of_real hvalid hunique hmem hx)
      rw [hnone, hostedAt_none]
      · exact List.mergeSort_nil.symm
      · intro y hy hid
        obtain ⟨hy, hyactive⟩ := mem_realGraph.mp (List.mem_of_mem_filter hy)
        exact hactive (entity_of_id hvalid hunique hy hmem hid ▸ hyactive)
  constructor
  · intro h n hn
    rw [← hostedAt_node hvalid hunique clock hn, ← hreal hn]
    exact h _
  · intro h id
    by_cases hid : ∃ n ∈ doc.entities.filter (hasKind nodeKinds), textOf (js "id") n = id
    · obtain ⟨n, hn, rfl⟩ := hid
      rw [hostedAt_node hvalid hunique clock hn, hreal hn, h n hn]
    · push Not at hid
      rw [hostedAt_none clock hid, hostedAt_none]
      intro n hn
      apply hid
      obtain ⟨hmem, hkind⟩ := List.mem_filter.mp hn
      exact List.mem_filter.mpr ⟨(mem_realGraph.mp hmem).1, hkind⟩

theorem sameRoles_iff {l l' : List JsValue} (hsub : l' ⊆ l) : hostedServiceRoles l = hostedServiceRoles l' ↔
    ∀ svc ∈ l.filter (hasKind serviceKinds), roleOf svc ≠ [] →
      ∃ svc' ∈ l'.filter (hasKind serviceKinds), roleOf svc' = roleOf svc := by
  rw [hostedServiceRoles_eq_iff]
  constructor
  · intro h svc hsvc hrole
    exact (mem_hostedServiceRoles.mp ((h _).mp (mem_hostedServiceRoles.mpr ⟨hrole, svc, hsvc, rfl⟩))).2
  · intro h role
    rw [mem_hostedServiceRoles, mem_hostedServiceRoles]
    refine and_congr_right fun hrole => ?_
    constructor
    · rintro ⟨svc, hsvc, rfl⟩
      exact h svc hsvc hrole
    · rintro ⟨svc, hsvc, rfl⟩
      obtain ⟨hmem, hkind⟩ := List.mem_filter.mp hsvc
      exact ⟨svc, List.mem_filter.mpr ⟨hsub hmem, hkind⟩, rfl⟩

/-- What a scan reports and what the nodes host depends on the real graph alone just when at each node
nothing else that is next to it makes a difference to a rule or to its roles. -/
theorem depends_on_placement_iff (rt : PlacementRuntime) (input : ScanInput)
    (hvalid : ValidGraph isDateTime doc)
    (hunique : UniqueGraph doc) : DependsOnPlacement rt input doc ↔
      ∀ n ∈ doc.entities, hasKind nodeKinds n = true →
        Unaffected rt (nodePlacement rt doc n) (nodePlacement rt (realGraph doc) n) := by
  have hboth : DependsOnPlacement rt input doc ↔ ∀ n ∈ doc.entities.filter (hasKind nodeKinds),
      (∀ rule ∈ allRules, SameViolators rt rule (nodePlacement rt doc n)
        (nodePlacement rt (realGraph doc) n)) ∧
        hostedServiceRoles (neighborsOf doc n) = hostedServiceRoles (neighborsOf (realGraph doc) n) := by
    rw [forall₂_and, ← sameReports_iff hvalid hunique, ← sameHosted_iff hvalid hunique input.clock]
    exact ⟨fun h => ⟨h.violations, h.hosted⟩, fun h => ⟨h.1, h.2⟩⟩
  rw [hboth]
  refine forall_congr' fun n => ?_
  rw [List.mem_filter, and_imp]
  refine forall₂_congr fun hn hkind => ?_
  rw [sameRoles_iff fun _ => neighbors_of_real hvalid hunique]
  exact unaffected_iff (narrower_real hvalid hunique n)

/-! ### A service of a swarm -/

/-- The platform of a swarm, and a service that is a member of it -/
def swarmPlatform : JsValue :=
  .obj (foundEntity ⟨js "lab", none, nasSeen⟩ (js "docker-swarm") (js "platform:lab")
  (js "platform") (.str (js "lab")) [])

def plexService : JsValue := .obj (foundEntity ⟨js "lab", none, nasSeen⟩ (js "docker-swarm")
  (js "service:lab:plex") (js "service") (.str (js "plex")) [(js "role", .str (js "media"))])

def plexMembership : JsValue :=
  .obj (foundEdge ⟨js "lab", none, nasSeen⟩ (js "member-of") (js "service:lab:plex") (js "platform:lab"))

def swarmGraph : GraphDocument := ⟨[swarmPlatform, plexService], [plexMembership]⟩

theorem swarmGraph_valid : ValidGraph (fun _ => true) swarmGraph := by
  intro part e he
  cases part with
  | entities =>
    rcases List.mem_cons.mp he with rfl | he
    · with_unfolding_all rfl
    · obtain rfl := List.mem_singleton.mp he
      with_unfolding_all rfl
  | edges =>
    obtain rfl := List.mem_singleton.mp he
    with_unfolding_all rfl

theorem swarmGraph_unique : UniqueGraph swarmGraph := by
  constructor
  · change [idOf swarmPlatform, idOf plexService].Nodup
    decide
  · exact List.nodup_singleton _

def labPlacement : PlacementRuntime := ⟨fun s => s, fun _ _ => 0⟩

def labScan : ScanInput := ⟨js "lab", fun _ => ⟨[], nasSeen, none⟩, nasSeen⟩

theorem depends_on_placement_iff_swarm : DependsOnPlacement labPlacement labScan swarmGraph ↔
    ∀ n ∈ swarmGraph.entities, hasKind nodeKinds n = true →
      Unaffected labPlacement (nodePlacement labPlacement swarmGraph n)
        (nodePlacement labPlacement (realGraph swarmGraph) n) :=
  depends_on_placement_iff labPlacement labScan swarmGraph_valid swarmGraph_unique

/-- The platform is taken for a node without a GPU that the service runs on. -/
theorem member_taken_for_placed : ¬ ∀ (rt : PlacementRuntime) (input : ScanInput)
    (isDateTime : JsString → Bool)
    (doc : GraphDocument), ValidGraph isDateTime doc → UniqueGraph doc → DependsOnPlacement rt input doc := by
  intro h
  have hdepends := h labPlacement labScan _ swarmGraph swarmGraph_valid swarmGraph_unique
  have hplatform : swarmPlatform ∈ swarmGraph.entities.filter (hasKind nodeKinds) :=
    List.mem_filter.mpr ⟨List.mem_cons_self .., by decide⟩
  have hgpu := (sameReports_iff swarmGraph_valid swarmGraph_unique).mp hdepends.violations _ hplatform
    gpuRequiredForMedia (by simp [allRules, buildInvariantRules]) plexService
  have hreported : violators labPlacement gpuRequiredForMedia
    (nodePlacement labPlacement swarmGraph swarmPlatform) =
      [plexService] := by
    with_unfolding_all rfl
  have hnone : violators labPlacement gpuRequiredForMedia
      (nodePlacement labPlacement (realGraph swarmGraph) swarmPlatform) = [] := by
    with_unfolding_all rfl
  rw [hreported, hnone] at hgpu
  exact List.not_mem_nil (hgpu.mp (List.mem_singleton_self _))

end Homelab
