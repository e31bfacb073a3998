import Homelab.GraphStore

/-! Calls on the graph one after the other, with no other writer: what an upsert makes of the records,
and the loop that sets the statuses of the records of a snapshot. -/
namespace Homelab
open Js Locked

/-- A call; `writeFile` refuses a document that the schema rejects. -/
def callGraph (isDateTime : JsString → Bool) (op : GraphOp) (doc : GraphDocument) : Option GraphDocument :=
  match runGraph op doc with
  | .ok (some doc', _) => if graphSchema isDateTime doc'.value then some doc' else none
  | _ => none

/-- A call that has returned, where the document can be dumped, is a call of the store. -/
theorem callGraph_step {rt : DocumentRuntime} {op : GraphOp} {doc doc' : GraphDocument}
    (h : callGraph rt.isDateTime op doc = some doc') (hdump : ∃ text, rt.yaml.dump doc'.value = .ok text) :
    (graphStore rt).Step doc (op, .returned .undefined) doc' := by
  have hrun : runGraph op doc = .ok (some doc', .undefined) ∧
      graphSchema rt.isDateTime doc'.value = true := by
    cases op with
    | upsertEntity entity =>
      rw [callGraph, runGraph] at h
      dsimp only at h
      split_ifs at h with hschema
      cases h
      exact ⟨rfl, hschema⟩
    | upsertEdge edge =>
      rw [callGraph, runGraph] at h
      dsimp only at h
      split_ifs at h with hschema
      cases h
      exact ⟨rfl, hschema⟩
  obtain ⟨text, htext⟩ := hdump
  refine ⟨some doc', hrun.1, rfl, ?_⟩
  intro d hd
  cases hd
  refine ⟨some text, ?_⟩
  change writeGraph rt doc' = _
  rw [writeGraph, if_pos hrun.2, htext]

/-! ### Entities and edges -/

inductive GraphPart
  | entities
  | edges
deriving DecidableEq

namespace GraphPart

def op : GraphPart → Fields → GraphOp
  | .entities => .upsertEntity
  | .edges => .upsertEdge

def records : GraphPart → GraphDocument → List JsValue
  | .entities, doc => doc.entities
  | .edges, doc => doc.edges

def put (part : GraphPart) (doc : GraphDocument) (records : List JsValue) : GraphDocument :=
  match part with
  | .entities => { doc with entities := records }
  | .edges => { doc with edges := records }

def schema (isDateTime : JsString → Bool) : GraphPart → Schema
  | .entities => entitySchema isDateTime
  | .edges => edgeSchema isDateTime

@[simp] theorem records_put (part : GraphPart) (doc : GraphDocument) (records : List JsValue) :
    part.records (part.put doc records) = records := by
  cases part <;> rfl

theorem records_put_ne {part other : GraphPart} (h : other ≠ part) (doc : GraphDocument)
    (records : List JsValue) : other.records (part.put doc records) = other.records doc := by
  cases part <;> cases other <;> first | rfl | exact absurd rfl h

end GraphPart

/-- The schema accepts all entities and edges. -/
def ValidGraph (isDateTime : JsString → Bool) (doc : GraphDocument) : Prop :=
  ∀ part : GraphPart, ∀ e ∈ part.records doc, part.schema isDateTime e = true

variable {isDateTime : JsString → Bool} {doc doc' : GraphDocument} {part : GraphPart} {id : JsString}
  {record : Fields} {records : List JsValue}

theorem graphSchema_value : graphSchema isDateTime doc.value = true ↔ ValidGraph isDateTime doc := by
  have hvalue : graphSchema isDateTime doc.value = (doc.entities.all (entitySchema isDateTime) &&
      (doc.edges.all (edgeSchema isDateTime) && true)) := by
    with_unfolding_all rfl
  rw [hvalue, Bool.and_true, Bool.and_eq_true, List.all_eq_true, List.all_eq_true]
  constructor
  · rintro ⟨hentities, hedges⟩ part
    cases part with
    | entities => exact hentities
    | edges => exact hedges
  · intro h
    exact ⟨h .entities, h .edges⟩

theorem callGraph_eq_some : callGraph isDateTime (part.op record) doc = some doc' ↔
    doc' = part.put doc (upsert record (part.records doc)) ∧ ValidGraph isDateTime doc' := by
  have hcall : callGraph isDateTime (part.op record) doc =
      if graphSchema isDateTime (part.put doc (upsert record (part.records doc))).value then
        some (part.put doc (upsert record (part.records doc))) else none := by
    cases part <;> rfl
  rw [hcall]
  constructor
  · intro h
    split_ifs at h with hschema
    cases h
    exact ⟨rfl, graphSchema_value.mp hschema⟩
  · rintro ⟨rfl, hvalid⟩
    rw [if_pos (graphSchema_value.mpr hvalid)]

/-- A document that is checked with its new records was valid but for them. -/
theorem validGraph_put (h : ValidGraph isDateTime doc)
    (hrecords : ∀ e ∈ records, part.schema isDateTime e = true) :
    ValidGraph isDateTime (part.put doc records) := by
  intro other e he
  by_cases hother : other = part
  · subst hother
    rw [GraphPart.records_put] at he
    exact hrecords e he
  · rw [GraphPart.records_put_ne hother] at he
    exact h other e he

/-! ### What the schema says of a record -/

/-- The properties of a record that the code reads, as its schema has them. -/
structure WellFormed (e : JsValue) : Prop where
  object : ∃ fs, e = .obj fs
  id : ∃ s, idOf e = some s
  lastSeen : ∃ s, property (js "last_seen") e = .str s
  status : ∃ s, property (js "status") e = .str s ∧ s ∈ [js "active", js "stale", js "gone"]

theorem string_of_schema {accepts : JsString → Bool} {v : JsValue} (h : Schema.string accepts v = true) :
    ∃ s, v = .str s ∧ accepts s = true := by
  cases v with
  | str s => exact ⟨s, rfl, h⟩
  | _ => cases h

theorem wellFormed_of_schema {e : JsValue} (h : part.schema isDateTime e = true) : WellFormed e := by
  have hobject : ∃ fs, e = .obj fs := by
    cases e with
    | obj fs => exact ⟨fs, rfl⟩
    | _ => cases part <;> cases h
  have hproperties : Schema.string (fun s => s ≠ []) (property (js "id") e) = true ∧
      Schema.string isDateTime (property (js "last_seen") e) = true ∧
      statusSchema (property (js "status") e) = true := by
    cases part with
    | entities => exact ⟨Schema.property_of_object h (by simp) (by simp [someText]),
        Schema.property_of_object h (by simp) (by simp), Schema.property_of_object h (by simp) (by simp)⟩
    | edges => exact ⟨Schema.property_of_object h (by simp) (by simp [someText]),
        Schema.property_of_object h (by simp) (by simp), Schema.property_of_object h (by simp) (by simp)⟩
  obtain ⟨hid, hseen, hstatus⟩ := hproperties
  obtain ⟨s, hs, -⟩ := string_of_schema hid
  obtain ⟨t, ht, -⟩ := string_of_schema hseen
  obtain ⟨u, hu, haccepts⟩ := string_of_schema hstatus
  exact ⟨hobject, ⟨s, idOf_eq_some.mpr hs⟩, ⟨t, ht⟩, u, hu, of_decide_eq_true haccepts⟩

theorem ValidGraph.wellFormed (h : ValidGraph isDateTime doc) {e : JsValue} (he : e ∈ part.records doc) :
    WellFormed e := wellFormed_of_schema (h part e he)

/-! ### Records by their ids -/

/-- `find(e => e.id === id)` -/
def recordById (id : JsString) (records : List JsValue) : Option JsValue := records.find? (hasId id)

theorem recordById_mem {e : JsValue} (h : recordById id records = some e) : e ∈ records ∧ idOf e = some id :=
  ⟨List.mem_of_find?_eq_some h, hasId_iff.mp (List.find?_some h)⟩

theorem recordById_eq_none : recordById id records = none ↔ some id ∉ records.map idOf := by
  rw [recordById, List.find?_eq_none]
  constructor
  · intro h hmem
    obtain ⟨e, he, hid⟩ := List.mem_map.mp hmem
    exact h e he (hasId_iff.mpr hid)
  · intro h e he hid
    exact h (List.mem_map.mpr ⟨e, he, hasId_iff.mp hid⟩)

theorem recordById_append {as bs : List JsValue} :
    recordById id (as ++ bs) = (recordById id as).or (recordById id bs) := List.find?_append

theorem recordById_cons_self {e : JsValue} {bs : List JsValue} (h : idOf e = some id) :
    recordById id (e :: bs) = some e := List.find?_cons_of_pos (hasId_iff.mpr h)

theorem recordById_cons_ne {e : JsValue} {bs : List JsValue} (h : idOf e ≠ some id) :
    recordById id (e :: bs) = recordById id bs :=
  List.find?_cons_of_neg fun hid => h (hasId_iff.mp hid)

/-- With unique ids, a record is the one of its id. -/
theorem recordById_of_mem (hunique : UniqueIds records) {e : JsValue} (he : e ∈ records)
    (hid : idOf e = some id) : recordById id records = some e := by
  obtain ⟨as, bs, rfl⟩ := List.append_of_mem he
  have hnot : recordById id as = none := by
    rw [recordById_eq_none]
    intro hmem
    rw [UniqueIds, Records.Unique, List.map_append, List.map_cons, hid] at hunique
    exact (List.nodup_append.mp hunique).2.2 _ hmem _ (List.mem_cons_self ..) rfl
  rw [recordById_append, hnot, recordById_cons_self hid, Option.none_or]

/-- The record of an id after each record has been replaced by one of its id. -/
theorem recordById_map {f : JsValue → JsValue} (hf : ∀ e ∈ records, idOf (f e) = idOf e) :
    recordById id (records.map f) = (recordById id records).map f := by
  induction records with
  | nil => rfl
  | cons e es ih =>
    have hrest := ih fun x hx => hf x (List.mem_cons_of_mem _ hx)
    have hid := hf e (List.mem_cons_self ..)
    by_cases hfound : idOf e = some id
    · rw [List.map_cons, recordById_cons_self (hid.trans hfound), recordById_cons_self hfound,
        Option.map_some]
    · have hother : idOf (f e) ≠ some id := by
        rw [hid]
        exact hfound
      rw [List.map_cons, recordById_cons_ne hother, recordById_cons_ne hfound, hrest]

/-- The record that an upsert leaves. -/
def merged (old : Option JsValue) (record : Fields) : JsValue :=
  .obj (spread (ownFields (old.getD .undefined)) record)

/-- An upsert changes the record of its id, and no other. -/
theorem recordById_upsert (hid : getOwn (js "id") record = .str id) (k : JsString) :
    recordById k (upsert record records) =
      if k = id then some (merged (recordById id records) record) else recordById k records := by
  have hmerged (fs : Fields) : idOf (.obj (spread fs record)) = some id := idOf_spread hid
  rw [upsert, hid]
  cases hidx : records.findIdx? (isId (.str id)) with
  | none =>
    -- no record has the id: the new one stands last, behind all the others
    have hnone : recordById id records = none :=
      recordById_eq_none.mpr (Records.not_mem_of_findIdx? (fun _ => hasId_iff) hidx)
    dsimp only
    rw [recordById_append]
    by_cases hk : k = id
    · subst hk
      rw [if_pos rfl, hnone, Option.none_or, recordById_cons_self (hmerged [])]
      rfl
    · have hother : idOf (.obj (spread [] record)) ≠ some k := by
        rw [hmerged]
        intro hsame
        exact hk (Option.some.inj hsame).symm
      rw [if_neg hk, recordById_cons_ne hother]
      exact Option.or_none
  | some idx =>
    -- the first record with the id is replaced where it stands
    obtain ⟨hlt, hp, hbefore⟩ := List.findIdx?_eq_some_iff_getElem.mp hidx
    obtain ⟨as, e, bs, rfl, rfl, -⟩ := Records.cut_of_findIdx? hidx
    have hget : (as ++ e :: bs).getD as.length .undefined = e := by
      rw [List.getD_eq_getElem?_getD, Records.getElem?_cut, Option.getD_some]
    have he : idOf e = some id := by
      rw [List.getElem_append_right (Nat.le_refl _)] at hp
      simp only [Nat.sub_self, List.getElem_cons_zero] at hp
      exact hasId_iff.mp hp
    have hnone : recordById id as = none := by
      rw [recordById, List.find?_eq_none]
      intro x hx
      obtain ⟨j, hj, rfl⟩ := List.getElem_of_mem hx
      have hfirst := hbefore j hj
      rw [List.getElem_append_left hj] at hfirst
      exact hfirst
    dsimp only
    rw [hget, Records.set_cut, recordById_append, recordById_append]
    by_cases hk : k = id
    · subst hk
      rw [if_pos rfl, hnone, Option.none_or, Option.none_or, recordById_cons_self (hmerged _),
        recordById_cons_self he]
      rfl
    · have hother : idOf e ≠ some k := by
        rw [he]
        intro hsame
        exact hk (Option.some.inj hsame).symm
      have hother' : idOf (.obj (spread (ownFields e) record)) ≠ some k := by
        rw [hmerged]
        intro hsame
        exact hk (Option.some.inj hsame).symm
      rw [if_neg hk, recordById_cons_ne hother', recordById_append, recordById_cons_ne hother]

/-- A record that has been written has an id. -/
theorem id_of_callGraph (h : callGraph isDateTime (part.op record) doc = some doc') :
    ∃ id, getOwn (js "id") record = .str id := by
  obtain ⟨rfl, hvalid⟩ := callGraph_eq_some.mp h
  cases hid : getOwn (js "id") record with
  | str id => exact ⟨id, rfl⟩
  | _ =>
    -- without a text as its id the record is added, and the schema rejects it
    have hadded : upsert record (part.records doc) = part.records doc ++ [.obj (spread [] record)] := by
      have hnone : (part.records doc).findIdx? (isId (getOwn (js "id") record)) = none := by
        rw [List.findIdx?_eq_none_iff]
        intro x _
        rw [hid]
        rfl
      rw [upsert, hnone]
    have hlast : JsValue.obj (spread [] record) ∈
        part.records (part.put doc (upsert record (part.records doc))) := by
      rw [GraphPart.records_put, hadded]
      exact List.mem_append_right _ (List.mem_singleton_self _)
    obtain ⟨s, hs⟩ := (hvalid.wellFormed hlast).id
    rw [idOf_eq_some, property_spread_nil, hid] at hs
    cases hs

/-! ### Statuses -/

/-- `{ ...record, status }` -/
def withStatus (e : JsValue) (status : JsString) : Fields :=
  setOwn (js "status") (.str status) (spread [] (ownFields e))

/-- The record once it has been upserted with the status. -/
def marked (e : JsValue) (status : JsString) : JsValue :=
  .obj (spread (ownFields e) (withStatus e status))

theorem getOwn_withStatus (e : JsValue) (status k : JsString) :
    getOwn k (withStatus e status) = if k = js "status" then .str status else getOwn k (ownFields e) := by
  rw [withStatus]
  by_cases hk : k = js "status"
  · rw [if_pos hk, hk, getOwn_setOwn]
  · rw [if_neg hk, getOwn_setOwn_ne (Ne.symm hk)]
    exact property_spread_nil k (ownFields e)

/-- A record that is marked keeps all its other properties. -/
theorem property_marked {e : JsValue} (he : ∃ fs, e = .obj fs) (status k : JsString) :
    property k (marked e status) = if k = js "status" then .str status else property k e := by
  obtain ⟨fs, rfl⟩ := he
  rw [marked, property_obj, getOwn_spread, getOwn_withStatus]
  by_cases hk : k = js "status"
  · subst hk
    have hmem : js "status" ∈ (withStatus (.obj fs) status).map Prod.fst := by
      by_contra hnot
      have hmissing := getOwn_of_not_mem hnot
      rw [getOwn_withStatus, if_pos rfl] at hmissing
      cases hmissing
    rw [if_pos hmem]
    rfl
  · rw [if_neg hk, if_neg hk]
    split_ifs <;> rfl

theorem idOf_marked {e : JsValue} (he : ∃ fs, e = .obj fs) (status : JsString) :
    idOf (marked e status) = idOf e := by
  apply idOf_eq_of_property
  rw [property_marked he, if_neg (by decide)]

/-- The schema accepts a record with another status. -/
theorem schema_marked {e : JsValue} (h : part.schema isDateTime e = true) {status : JsString}
    (hstatus : status ∈ [js "active", js "stale", js "gone"]) :
    part.schema isDateTime (marked e status) = true := by
  obtain ⟨fs, rfl⟩ := (wellFormed_of_schema h).object
  set gs := spread (ownFields (.obj fs)) (withStatus (.obj fs) status) with hgs
  have hproperty (k : JsString) : getOwn k gs = if k = js "status" then .str status else getOwn k fs :=
    property_marked ⟨fs, rfl⟩ status k
  have hkeys (l : JsString) (hl : l ∈ gs.map Prod.fst) : l = js "status" ∨ l ∈ fs.map Prod.fst := by
    rcases keys_spread hl with hl | hl
    · rcases keys_setOwn hl with hl | hl
      · exact .inl hl
      · rcases keys_spread hl with hl | hl
        · exact .inr hl
        · cases hl
    · exact .inr hl
  have haccepts : statusSchema (.str status) = true := decide_eq_true hstatus
  have hupdated {required : List JsString} {properties : List (JsString × Schema)}
      (h : Schema.object required properties false (.obj fs) = true)
      (hstatus : ∀ check, (js "status", check) ∈ properties → check = statusSchema)
      (hin : (js "status", statusSchema) ∈ properties) :
      Schema.object required properties false (.obj gs) = true := by
    apply Schema.object_update h (k := js "status")
    · rw [hproperty, if_pos rfl]
      rfl
    · intro check hcheck
      rw [hproperty, if_pos rfl, hstatus check hcheck]
      exact haccepts
    · exact ⟨_, hin, rfl⟩
    · intro l hl
      rw [hproperty, if_neg hl]
    · exact hkeys
  cases part with
  | entities =>
    apply hupdated h
    · intro check hcheck
      simpa [js] using hcheck
    · simp
  | edges =>
    apply hupdated h
    · intro check hcheck
      simpa [js] using hcheck
    · simp

end Homelab
