import Homelab.RefreshEngine

/-! What the steps of a sweep do to the graph: the enumeration leaves a record as it is or as it has been
reported, and the reconciliation changes the statuses that its verdicts change. -/
namespace Homelab
open Js Locked

variable {isDateTime : JsString → Bool} {doc doc' : GraphDocument} {part : GraphPart} {id : JsString}
  {record : Fields} {records records' : List JsValue}

/-! ### The loop over a snapshot -/

/-- A record after its verdict. -/
def judged (verdict : JsValue → Option JsString) (e : JsValue) : JsValue :=
  match verdict e with
  | none => e
  | some status => marked e status

theorem judged_of_none {verdict : JsValue → Option JsString} {e : JsValue} (h : verdict e = none) :
    judged verdict e = e := by
  rw [judged, h]

/-- A verdict gives statuses that the schema knows. -/
def KnownVerdict (verdict : JsValue → Option JsString) : Prop :=
  ∀ e status, verdict e = some status → status ∈ [js "active", js "stale", js "gone"]

theorem idOf_judged {verdict : JsValue → Option JsString} {e : JsValue} (he : WellFormed e) :
    idOf (judged verdict e) = idOf e := by
  rw [judged]
  cases verdict e with
  | none => rfl
  | some status => exact idOf_marked he.object status

theorem property_judged {verdict : JsValue → Option JsString} {e : JsValue} (he : WellFormed e)
    {k : JsString} (hk : k ≠ js "status") : property k (judged verdict e) = property k e := by
  rw [judged]
  cases verdict e with
  | none => rfl
  | some status => exact (property_marked he.object status k).trans (if_neg hk)

theorem schema_judged {verdict : JsValue → Option JsString} (hverdict : KnownVerdict verdict)
    {e : JsValue} (he : part.schema isDateTime e = true) :
    part.schema isDateTime (judged verdict e) = true := by
  rw [judged]
  cases hstatus : verdict e with
  | none => exact he
  | some status => exact schema_marked he (hverdict e status hstatus)

theorem GraphPart.put_put (part : GraphPart) (doc : GraphDocument) (xs ys : List JsValue) :
    part.put (part.put doc xs) ys = part.put doc ys := by
  cases part <;> rfl

theorem GraphPart.put_records (part : GraphPart) (doc : GraphDocument) :
    part.put doc (part.records doc) = doc := by
  cases part <;> rfl

/-- An upsert of a record with another status marks the record in its place. -/
theorem upsert_withStatus {done todo : List JsValue} {e : JsValue} (he : WellFormed e)
    (hunique : UniqueIds (done ++ e :: todo)) (status : JsString) :
    upsert (withStatus e status) (done ++ e :: todo) = done ++ marked e status :: todo := by
  obtain ⟨id, hid⟩ := he.id
  have hrecord : getOwn (js "id") (withStatus e status) = .str id := by
    rw [getOwn_withStatus, if_neg (by decide)]
    obtain ⟨fs, rfl⟩ := he.object
    exact idOf_eq_some.mp hid
  have hbefore : done.findIdx? (isId (.str id)) = none := by
    rw [List.findIdx?_eq_none_iff]
    intro x hx
    rw [Bool.eq_false_iff]
    intro hfound
    rw [UniqueIds, Records.Unique, List.map_append, List.map_cons, hid] at hunique
    have hmem : some id ∈ done.map idOf := List.mem_map.mpr ⟨x, hx, hasId_iff.mp hfound⟩
    exact (List.nodup_append.mp hunique).2.2 _ hmem _ (List.mem_cons_self ..) rfl
  have hfound : (done ++ e :: todo).findIdx? (isId (.str id)) = some done.length := by
    have hself : isId (.str id) e = true := hasId_iff.mpr hid
    rw [List.findIdx?_append, hbefore, List.findIdx?_cons, hself]
    simp
  have hget : (done ++ e :: todo).getD done.length .undefined = e := by
    rw [List.getD_eq_getElem?_getD, Records.getElem?_cut, Option.getD_some]
  rw [upsert, hrecord, hfound]
  dsimp only
  rw [hget, Records.set_cut]
  rfl

/-- The loop comes to its end, and each record is as its verdict says. -/
theorem setStatuses_eq (part : GraphPart) {verdict : JsValue → Option JsString}
    (hverdict : KnownVerdict verdict)
    (hvalid : ValidGraph isDateTime doc) (hunique : UniqueIds (part.records doc)) :
    setStatuses isDateTime part verdict (part.records doc) doc =
      some (part.put doc ((part.records doc).map (judged verdict))) := by
  -- the records before are judged, those to come are as in the snapshot
  have key (todo done : List JsValue) (hall : ∀ e ∈ done ++ todo, part.schema isDateTime e = true)
      (hunique : UniqueIds (done ++ todo)) :
      setStatuses isDateTime part verdict todo (part.put doc (done ++ todo)) =
        some (part.put doc (done ++ todo.map (judged verdict))) := by
    induction todo generalizing done with
    | nil => rfl
    | cons e todo ih =>
      have he : part.schema isDateTime e = true :=
        hall e (List.mem_append_right _ (List.mem_cons_self ..))
      have hform := wellFormed_of_schema he
      have hmoved : done ++ judged verdict e :: todo = (done ++ [judged verdict e]) ++ todo := by simp
      have hall' : ∀ x ∈ (done ++ [judged verdict e]) ++ todo, part.schema isDateTime x = true := by
        rw [← hmoved]
        intro x hx
        rcases List.mem_append.mp hx with hx | hx
        · exact hall x (List.mem_append_left _ hx)
        · rcases List.mem_cons.mp hx with rfl | hx
          · exact schema_judged hverdict he
          · exact hall x (List.mem_append_right _ (List.mem_cons_of_mem _ hx))
      have hunique' : UniqueIds ((done ++ [judged verdict e]) ++ todo) := by
        rw [← hmoved]
        exact Records.unique_replace (idOf_judged hform) hunique
      have hrest := ih (done ++ [judged verdict e]) hall' hunique'
      rw [← hmoved] at hrest
      have hgoal : done ++ List.map (judged verdict) (e :: todo) =
          (done ++ [judged verdict e]) ++ todo.map (judged verdict) := by simp
      rw [hgoal, setStatuses]
      rw [judged] at hrest hall' ⊢
      cases hstatus : verdict e with
      | none =>
        rw [hstatus] at hrest
        exact hrest
      | some status =>
        rw [hstatus] at hrest hall'
        dsimp only at hrest hall' ⊢
        have hcall : callGraph isDateTime (part.op (withStatus e status)) (part.put doc (done ++ e :: todo)) =
            some (part.put doc (done ++ marked e status :: todo)) := by
          rw [callGraph_eq_some]
          constructor
          · rw [GraphPart.records_put, GraphPart.put_put, upsert_withStatus hform hunique]
          · apply validGraph_put hvalid
            intro x hx
            apply hall' x
            simpa using hx
        rw [hcall]
        exact hrest
  have hstart := key (part.records doc) [] (hvalid part) hunique
  rw [List.nil_append, GraphPart.put_records] at hstart
  exact hstart

namespace Reconciliation

variable {R : Reconciliation}

theorem degraded_cases {e : JsValue} {status : JsString} (h : R.degraded e = some status) :
    (status = js "gone" ∧ R.thresholds.goneThresholdMs.le (R.age e) = true) ∨
    (status = js "stale" ∧ R.thresholds.stalenessThresholdMs.le (R.age e) = true ∧
      hasStatus (js "active") e = true) := by
  rw [degraded] at h
  split_ifs at h with hgone hstale
  · cases h
    exact .inl ⟨rfl, hgone⟩
  · cases h
    rw [Bool.and_eq_true] at hstale
    exact .inr ⟨rfl, hstale⟩

theorem entityVerdict_cases {e : JsValue} {status : JsString} (h : R.entityVerdict e = some status) :
    onPlatform R.succeeded e = true ∧ hasStatus (js "gone") e = false ∧ R.degraded e = some status := by
  rw [entityVerdict] at h
  split_ifs at h with hplatform hgone
  rw [Bool.not_eq_true', Bool.not_eq_false] at hplatform
  exact ⟨hplatform, Bool.eq_false_iff.mpr hgone, h⟩

theorem edgeVerdict_cases {entities : List JsValue} {e : JsValue} {status : JsString}
    (h : R.edgeVerdict entities e = some status) :
    hasStatus (js "gone") e = false ∧ R.degraded e = some status ∧
      ∃ p ∈ R.succeeded, edgePlatformId entities e = .str p := by
  rw [edgeVerdict] at h
  split_ifs at h with hgone
  split at h
  · next p hp =>
    split_ifs at h with hmem
    exact ⟨Bool.eq_false_iff.mpr hgone, h, p, hmem, hp⟩
  · cases h

theorem known_of_degraded {e : JsValue} {status : JsString} (h : R.degraded e = some status) :
    status ∈ [js "active", js "stale", js "gone"] := by
  rcases degraded_cases h with ⟨rfl, -⟩ | ⟨rfl, -⟩
  · simp
  · simp

theorem entityVerdict_known (R : Reconciliation) : KnownVerdict R.entityVerdict :=
  fun _ _ h => known_of_degraded (entityVerdict_cases h).2.2

theorem edgeVerdict_known (R : Reconciliation) (entities : List JsValue) :
    KnownVerdict (R.edgeVerdict entities) :=
  fun _ _ h => known_of_degraded (edgeVerdict_cases h).2.1

end Reconciliation

/-- The graph after the reconciliation. -/
def reconciled (R : Reconciliation) (current : GraphDocument) : GraphDocument where
  entities := current.entities.map (judged R.entityVerdict)
  edges := current.edges.map (judged (R.edgeVerdict current.entities))

/-- No write of the reconciliation is refused. -/
theorem reconcile_eq {R : Reconciliation} (hvalid : ValidGraph isDateTime doc) (hunique : UniqueGraph doc) :
    reconcile isDateTime R doc = some (reconciled R doc) := by
  have hentities := setStatuses_eq .entities (R.entityVerdict_known) hvalid
    hunique.1
  have hvalid' : ValidGraph isDateTime
      { doc with entities := doc.entities.map (judged R.entityVerdict) } := by
    refine @validGraph_put _ _ .entities _ hvalid ?_
    intro e he
    obtain ⟨x, hx, rfl⟩ := List.mem_map.mp he
    exact schema_judged R.entityVerdict_known (hvalid .entities x hx)
  have hedges := setStatuses_eq .edges
    (R.edgeVerdict_known doc.entities) hvalid' hunique.2
  change setStatuses isDateTime .entities R.entityVerdict doc.entities doc = _ at hentities
  rw [reconcile, hentities]
  exact hedges

/-- The records that a verdict has judged, by their ids. -/
theorem recordById_judged {verdict : JsValue → Option JsString} (hall : ∀ e ∈ records, WellFormed e)
    (id : JsString) : recordById id (records.map (judged verdict)) =
    (recordById id records).map (judged verdict) :=
  recordById_map fun e he => idOf_judged (hall e he)

/-- The verdict of a reconciliation on the records of a part -/
def Reconciliation.verdict (R : Reconciliation) (current : GraphDocument) (part : GraphPart) :
    JsValue → Option JsString :=
  match part with
  | .entities => R.entityVerdict
  | .edges => R.edgeVerdict current.entities

theorem recordById_reconciled (R : Reconciliation) (hvalid : ValidGraph isDateTime doc) (part : GraphPart)
    (id : JsString) : recordById id (part.records (reconciled R doc)) =
      (recordById id (part.records doc)).map (judged (R.verdict doc part)) := by
  have hform : ∀ e ∈ part.records doc, WellFormed e := fun e he => hvalid.wellFormed he
  cases part with
  | entities => exact recordById_judged hform id
  | edges => exact recordById_judged hform id

/-- A record on which there is no verdict is as it was. -/
theorem recordById_unmarked {R : Reconciliation} (hvalid : ValidGraph isDateTime doc) {e : JsValue}
    (he : recordById id (part.records doc) = some e) (hnone : R.verdict doc part e = none) :
    recordById id (part.records (reconciled R doc)) = some e := by
  rw [recordById_reconciled R hvalid, he, Option.map_some, judged, hnone]

theorem reconciled_valid {R : Reconciliation} (hvalid : ValidGraph isDateTime doc) :
    ValidGraph isDateTime (reconciled R doc) := by
  intro part e he
  cases part with
  | entities =>
    obtain ⟨x, hx, rfl⟩ := List.mem_map.mp he
    exact schema_judged R.entityVerdict_known (hvalid .entities x hx)
  | edges =>
    obtain ⟨x, hx, rfl⟩ := List.mem_map.mp he
    exact schema_judged (R.edgeVerdict_known _) (hvalid .edges x hx)

theorem reconciled_unique {R : Reconciliation} (hvalid : ValidGraph isDateTime doc)
    (hunique : UniqueGraph doc) : UniqueGraph (reconciled R doc) := by
  have hkept (part : GraphPart) {verdict : JsValue → Option JsString}
      (h : UniqueIds (part.records doc)) : UniqueIds ((part.records doc).map (judged verdict)) := by
    rw [UniqueIds, Records.Unique, List.map_map]
    have hsame : (part.records doc).map (idOf ∘ judged verdict) = (part.records doc).map idOf :=
      List.map_congr_left fun e he => idOf_judged (hvalid.wellFormed he)
    rw [hsame]
    exact h
  exact ⟨hkept .entities hunique.1, hkept .edges hunique.2⟩

/-! ### Enumeration -/

/-- A record is as before, or it has been merged with a report, the properties of which it has. -/
def Merges (Reported : Fields → Prop) (records records' : List JsValue) : Prop :=
  ∀ id, recordById id records' = recordById id records ∨
    ∃ record, Reported record ∧ getOwn (js "id") record = .str id ∧
      ∃ e, recordById id records' = some e ∧
        ∀ k, getOwn k record ≠ .undefined → property k e = getOwn k record

theorem follows_refl (Reported : Fields → Prop) (records : List JsValue) :
    Merges Reported records records := fun _ => .inl rfl

theorem Merges.trans {Reported : Fields → Prop} {records'' : List JsValue}
    (h : Merges Reported records records') (h' : Merges Reported records' records'') :
    Merges Reported records records'' := by
  intro id
  rcases h' id with hsame | hmerged
  · rw [hsame]
    exact h id
  · exact .inr hmerged

theorem Merges.mono {Reported Reported' : Fields → Prop} (h : Merges Reported records records')
    (hmono : ∀ record, Reported record → Reported' record) : Merges Reported' records records' := by
  intro id
  rcases h id with hsame | ⟨record, hrecord, hmerged⟩
  · exact .inl hsame
  · exact .inr ⟨record, hmono record hrecord, hmerged⟩

/-- Nothing is deleted. -/
theorem Merges.kept {Reported : Fields → Prop} (h : Merges Reported records records')
    {e : JsValue} (he : recordById id records = some e) : ∃ e', recordById id records' = some e' := by
  rcases h id with hsame | ⟨_, _, _, e', he', _⟩
  · exact ⟨e, hsame.trans he⟩
  · exact ⟨e', he'⟩

/-- What the calls of one part do to the graph: the other part stays as it is. -/
structure Upserts (isDateTime : JsString → Bool) (part : GraphPart) (Reported : Fields → Prop)
    (doc doc' : GraphDocument) : Prop where
  valid : ValidGraph isDateTime doc → ValidGraph isDateTime doc'
  unique : UniqueGraph doc → UniqueGraph doc'
  follows : Merges Reported (part.records doc) (part.records doc')
  other : ∀ other, other ≠ part → other.records doc' = other.records doc

theorem upserts_refl (isDateTime : JsString → Bool) (part : GraphPart) (Reported : Fields → Prop)
    (doc : GraphDocument) : Upserts isDateTime part Reported doc doc :=
  ⟨fun h => h, fun h => h, follows_refl _ _, fun _ _ => rfl⟩

theorem upserts_call (h : callGraph isDateTime (part.op record) doc = some doc') :
    Upserts isDateTime part (fun r => r = record) doc doc' := by
  obtain ⟨id, hid⟩ := id_of_callGraph h
  obtain ⟨rfl, hvalid⟩ := callGraph_eq_some.mp h
  refine ⟨fun _ => hvalid, ?_, ?_, ?_⟩
  · intro hunique
    have hids : ∀ p ∈ upsert record (part.records doc), idOf p ≠ none := by
      intro p hp
      have hform : WellFormed p := by
        rw [← part.records_put doc (upsert record (part.records doc))] at hp
        exact hvalid.wellFormed hp
      obtain ⟨s, hs⟩ := hform.id
      rw [hs]
      exact Option.some_ne_none s
    have hkept := (upsert_keeps hids).unique
    cases part with
    | entities => exact ⟨hkept hunique.1, hunique.2⟩
    | edges => exact ⟨hunique.1, hkept hunique.2⟩
  · intro k
    rw [GraphPart.records_put, recordById_upsert hid]
    by_cases hk : k = id
    · subst hk
      rw [if_pos rfl]
      refine .inr ⟨record, rfl, hid, _, rfl, ?_⟩
      intro l hl
      rw [merged, property_obj]
      exact getOwn_spread_of_defined hl
    · rw [if_neg hk]
      exact .inl rfl
  · intro other hother
    exact GraphPart.records_put_ne hother _ _

theorem Upserts.mono {Reported Reported' : Fields → Prop} (h : Upserts isDateTime part Reported doc doc')
    (hmono : ∀ record, Reported record → Reported' record) : Upserts isDateTime part Reported' doc doc' :=
  ⟨h.valid, h.unique, h.follows.mono hmono, h.other⟩

theorem Upserts.trans {Reported : Fields → Prop} {doc'' : GraphDocument}
    (h : Upserts isDateTime part Reported doc doc') (h' : Upserts isDateTime part Reported doc' doc'') :
    Upserts isDateTime part Reported doc doc'' :=
  ⟨fun hv => h'.valid (h.valid hv), fun hu => h'.unique (h.unique hu), h.follows.trans h'.follows,
    fun other hother => (h'.other other hother).trans (h.other other hother)⟩

theorem upserts_all (reports : List Fields) (doc : GraphDocument) :
    Upserts isDateTime part (· ∈ reports) doc (upsertAll isDateTime part reports doc).1 := by
  induction reports generalizing doc with
  | nil => exact upserts_refl ..
  | cons record reports ih =>
    rw [upsertAll]
    cases hcall : callGraph isDateTime (part.op record) doc with
    | none => exact (ih doc).mono fun _ hr => List.mem_cons_of_mem _ hr
    | some doc' =>
      have hfirst : Upserts isDateTime part (· ∈ record :: reports) doc doc' := by
        apply (upserts_call hcall).mono
        rintro _ rfl
        exact List.mem_cons_self ..
      exact hfirst.trans ((ih doc').mono fun _ hr => List.mem_cons_of_mem _ hr)

/-- The records of a part that a visit has reported. -/
def Visit.reports (visit : Visit) (part : GraphPart) : List Fields :=
  match visit, part with
  | .enumerated entities _, .entities => entities
  | .enumerated _ edges, .edges => edges
  | _, _ => []

/-- What an enumeration does to the graph. -/
structure Enumerates (isDateTime : JsString → Bool) (Reported : GraphPart → Fields → Prop)
    (doc doc' : GraphDocument) : Prop where
  valid : ValidGraph isDateTime doc → ValidGraph isDateTime doc'
  unique : UniqueGraph doc → UniqueGraph doc'
  follows : ∀ part, Merges (Reported part) (part.records doc) (part.records doc')

theorem Enumerates.mono {Reported Reported' : GraphPart → Fields → Prop}
    (h : Enumerates isDateTime Reported doc doc')
    (hmono : ∀ part record, Reported part record → Reported' part record) :
    Enumerates isDateTime Reported' doc doc' :=
  ⟨h.valid, h.unique, fun part => (h.follows part).mono (hmono part)⟩

theorem Enumerates.trans {Reported : GraphPart → Fields → Prop} {doc'' : GraphDocument}
    (h : Enumerates isDateTime Reported doc doc') (h' : Enumerates isDateTime Reported doc' doc'') :
    Enumerates isDateTime Reported doc doc'' :=
  ⟨fun hv => h'.valid (h.valid hv), fun hu => h'.unique (h.unique hu),
    fun part => (h.follows part).trans (h'.follows part)⟩

theorem enumerates_refl (Reported : GraphPart → Fields → Prop) (doc : GraphDocument) :
    Enumerates isDateTime Reported doc doc := ⟨fun h => h, fun h => h, fun _ => follows_refl _ _⟩

theorem enumerates_platform (p : PlatformVisit) (doc : GraphDocument) :
    Enumerates isDateTime (fun part record => record ∈ p.visit.reports part) doc
      (enumeratePlatform isDateTime p doc).1 := by
  obtain ⟨platformId, platformKind, visit⟩ := p
  cases visit with
  | enumerated entities edges =>
    have hentities := @upserts_all isDateTime .entities entities doc
    have hedges := @upserts_all isDateTime .edges edges
      (upsertAll isDateTime .entities entities doc).1
    refine ⟨fun hv => hedges.valid (hentities.valid hv), fun hu => hedges.unique (hentities.unique hu), ?_⟩
    intro part
    cases part with
    | entities =>
      have hsame := hedges.other .entities (by decide)
      change Merges _ _ (GraphPart.records .entities (upsertAll isDateTime .edges edges _).1)
      rw [hsame]
      exact hentities.follows
    | edges =>
      have hsame := hentities.other .edges (by decide)
      have hfollows := hedges.follows
      rw [hsame] at hfollows
      exact hfollows
  | _ => exact enumerates_refl _ doc

/-- A platform that the sweep visits has reported the record. -/
def SweepInput.Reports (input : SweepInput) (part : GraphPart) (platformId : JsString)
    (record : Fields) : Prop :=
  ∃ p ∈ input.platforms, passesFilter input.platformFilter p.platformId = true ∧
    p.platformId = platformId ∧ record ∈ p.visit.reports part

theorem enumerates_platforms (ps : List PlatformVisit) (doc : GraphDocument) :
    Enumerates isDateTime (fun part record => ∃ p ∈ ps, record ∈ p.visit.reports part) doc
      (enumeratePlatforms isDateTime ps doc).1 := by
  induction ps generalizing doc with
  | nil => exact enumerates_refl _ doc
  | cons p ps ih =>
    have hfirst : Enumerates isDateTime (fun part record => ∃ q ∈ p :: ps, record ∈ q.visit.reports part)
        doc (enumeratePlatform isDateTime p doc).1 := by
      apply (enumerates_platform p doc).mono
      intro part record hrecord
      exact ⟨p, List.mem_cons_self .., hrecord⟩
    apply hfirst.trans
    apply (ih _).mono
    rintro part record ⟨q, hq, hrecord⟩
    exact ⟨q, List.mem_cons_of_mem _ hq, hrecord⟩

theorem SweepRuntime.enumerates (rt : SweepRuntime) (input : SweepInput) (prior : GraphDocument) :
    Enumerates rt.isDateTime (fun part record => ∃ platformId, input.Reports part platformId record) prior
      (rt.enumerate input prior).1 := by
  apply (enumerates_platforms _ prior).mono
  rintro part record ⟨p, hp, hrecord⟩
  obtain ⟨hin, hfilter⟩ := List.mem_filter.mp hp
  exact ⟨p.platformId, p, hin, hfilter, rfl, hrecord⟩

/-- The summaries are those of the platforms that pass the filter, and a platform has succeeded
when it has been enumerated. -/
theorem mem_succeededPlatformIds {ps : List PlatformVisit} {p : JsString} {doc : GraphDocument} :
    p ∈ succeededPlatformIds (enumeratePlatforms isDateTime ps doc).2 ↔
      ∃ q ∈ ps, q.platformId = p ∧ ∃ entities edges, q.visit = .enumerated entities edges := by
  induction ps generalizing doc with
  | nil => simp [succeededPlatformIds, enumeratePlatforms]
  | cons q ps ih =>
    rw [List.exists_mem_cons_iff, ← @ih (enumeratePlatform isDateTime q doc).1, enumeratePlatforms]
    obtain ⟨platformId, platformKind, visit⟩ := q
    cases visit with
    | enumerated entities edges =>
      constructor
      · intro hp
        rcases List.mem_cons.mp hp with rfl | hp
        · exact .inl ⟨rfl, entities, edges, rfl⟩
        · exact .inr hp
      · rintro (⟨rfl, -⟩ | hp)
        · exact List.mem_cons_self ..
        · exact List.mem_cons_of_mem _ hp
    | _ =>
      constructor
      · exact .inr
      · rintro (⟨-, entities, edges, hvisit⟩ | hp)
        · cases hvisit
        · exact hp

/-- The platforms that a sweep has enumerated. -/
def SweepInput.succeeded (input : SweepInput) (p : JsString) : Prop :=
  ∃ q ∈ input.platforms, passesFilter input.platformFilter q.platformId = true ∧ q.platformId = p ∧
    ∃ entities edges, q.visit = .enumerated entities edges

theorem SweepRuntime.mem_succeeded (rt : SweepRuntime) (input : SweepInput) (prior : GraphDocument)
    (p : JsString) : p ∈ succeededPlatformIds (rt.enumerate input prior).2 ↔ input.succeeded p := by
  change p ∈ succeededPlatformIds (enumeratePlatforms rt.isDateTime _ prior).2 ↔ _
  rw [mem_succeededPlatformIds]
  constructor
  · rintro ⟨q, hq, hp, hvisit⟩
    obtain ⟨hin, hfilter⟩ := List.mem_filter.mp hq
    exact ⟨q, hin, hfilter, hp, hvisit⟩
  · rintro ⟨q, hin, hfilter, hp, hvisit⟩
    exact ⟨q, List.mem_filter.mpr ⟨hin, hfilter⟩, hp, hvisit⟩

/-- A platform that has reported a record has been enumerated. -/
theorem SweepInput.Reports.succeeded {input : SweepInput} {p : JsString}
    (h : input.Reports part p record) : input.succeeded p := by
  obtain ⟨q, hin, hfilter, hp, hrecord⟩ := h
  refine ⟨q, hin, hfilter, hp, ?_⟩
  cases hvisit : q.visit with
  | enumerated entities edges => exact ⟨entities, edges, rfl⟩
  | _ =>
    rw [hvisit] at hrecord
    cases part <;> cases hrecord

end Homelab
