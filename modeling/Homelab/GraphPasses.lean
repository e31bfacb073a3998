import Homelab.SweepSteps

/-! Passes over the graph: each reads all of it once and then writes records back, one after the other,
with some of their fields replaced. -/
namespace Homelab
open Js Locked

/-- `{ ...e, ...fields }` -/
def rewritten (e : JsValue) (fields : Fields) : Fields := spread (spread [] (ownFields e)) fields

/-- `{ ...e.attributes, ...added }` -/
def withAnnotation (e : JsValue) (added : Fields) : JsValue :=
  .obj (rewritten (property (js "attributes") e) added)

/-- `entitiesByKind(kind)` -/
def entitiesByKind (kind : JsString) (doc : GraphDocument) : List JsValue :=
  doc.entities.filter fun e => equalsText kind (property (js "kind") e)

/-- A record as a pass has read it, and what it writes over it -/
structure WriteBack where
  part : GraphPart
  read : JsValue
  fields : Fields

def WriteBack.record (w : WriteBack) : Fields := rewritten w.read w.fields

def WriteBack.call (isDateTime : JsString → Bool) (w : WriteBack) (doc : GraphDocument) :
    Option GraphDocument := callGraph isDateTime (w.part.op w.record) doc

/-- The writes one after the other, up to one that is refused, and whether all have been made. -/
def writeAll (isDateTime : JsString → Bool) : List WriteBack → GraphDocument → GraphDocument × Bool
  | [], doc => (doc, true)
  | w :: ws, doc =>
    match w.call isDateTime doc with
    | none => (doc, false)
    | some doc' => writeAll isDateTime ws doc'

/-- The writes one after the other; one that is refused is left out. -/
def writeEach (isDateTime : JsString → Bool) : List WriteBack → GraphDocument → GraphDocument
  | [], doc => doc
  | w :: ws, doc => writeEach isDateTime ws ((w.call isDateTime doc).getD doc)

/-! ### The reconciliation as a pass -/

def statusWrites (part : GraphPart) (verdict : JsValue → Option JsString) (records : List JsValue) :
    List WriteBack :=
  records.filterMap fun e => (verdict e).map fun status => ⟨part, e, [(js "status", .str status)]⟩

/-- What the reconciliation of a sweep writes back -/
def reconcileWrites (R : Reconciliation) (snapshot : GraphDocument) : List WriteBack :=
  statusWrites .entities R.entityVerdict snapshot.entities ++
    statusWrites .edges (R.edgeVerdict snapshot.entities) snapshot.edges

variable {isDateTime : JsString → Bool} {doc doc' : GraphDocument} {part : GraphPart}

theorem writeAll_append {ws ws' : List WriteBack} (h : (writeAll isDateTime ws doc).2 = true) :
    writeAll isDateTime (ws ++ ws') doc = writeAll isDateTime ws' (writeAll isDateTime ws doc).1 := by
  induction ws generalizing doc with
  | nil => rfl
  | cons w ws ih =>
    rw [writeAll] at h
    rw [List.cons_append, writeAll, writeAll]
    cases hcall : w.call isDateTime doc with
    | none =>
      rw [hcall] at h
      cases h
    | some doc' =>
      rw [hcall] at h
      exact ih h

/-- After a refusal nothing is written. -/
theorem writeAll_stopped {ws ws' : List WriteBack} (h : (writeAll isDateTime ws doc).2 = false) :
    writeAll isDateTime (ws ++ ws') doc = writeAll isDateTime ws doc := by
  induction ws generalizing doc with
  | nil => cases h
  | cons w ws ih =>
    rw [writeAll] at h
    rw [List.cons_append, writeAll, writeAll]
    cases hcall : w.call isDateTime doc with
    | none => rfl
    | some doc' =>
      rw [hcall] at h
      exact ih h

/-- What every write keeps, the pass keeps. -/
theorem writeAll_keeps {I : GraphDocument → Prop} {ws : List WriteBack} (h : I doc)
    (hstep : ∀ w ∈ ws, ∀ d d', I d → w.call isDateTime d = some d' → I d') :
    I (writeAll isDateTime ws doc).1 := by
  induction ws generalizing doc with
  | nil => exact h
  | cons w ws ih =>
    rw [writeAll]
    cases hcall : w.call isDateTime doc with
    | none => exact h
    | some doc' =>
      apply ih (hstep w (List.mem_cons_self ..) doc doc' h hcall)
      intro w' hw'
      exact hstep w' (List.mem_cons_of_mem _ hw')

/-- The document of a pass that has come to its end -/
def completed (r : GraphDocument × Bool) : Option GraphDocument := if r.2 then some r.1 else none

theorem setStatuses_writes {verdict : JsValue → Option JsString} (records : List JsValue)
    (doc : GraphDocument) : setStatuses isDateTime part verdict records doc =
      completed (writeAll isDateTime (statusWrites part verdict records) doc) := by
  induction records generalizing doc with
  | nil => rfl
  | cons e records ih =>
    rw [setStatuses, statusWrites, List.filterMap_cons]
    cases hverdict : verdict e with
    | none => exact ih doc
    | some status =>
      have hcall : callGraph isDateTime (part.op (withStatus e status)) doc =
          WriteBack.call isDateTime ⟨part, e, [(js "status", .str status)]⟩ doc := rfl
      dsimp only [Option.map_some]
      rw [writeAll, hcall]
      cases WriteBack.call isDateTime ⟨part, e, [(js "status", .str status)]⟩ doc with
      | none => rfl
      | some doc' => exact ih doc'

/-- The reconciliation of a sweep is a pass. -/
theorem reconcile_writes (R : Reconciliation) (current : GraphDocument) :
    reconcile isDateTime R current = completed (writeAll isDateTime (reconcileWrites R current) current) := by
  rw [reconcile, reconcileWrites, setStatuses_writes]
  cases hdone : (writeAll isDateTime (statusWrites .entities R.entityVerdict current.entities) current).2 with
  | true =>
    rw [writeAll_append hdone, completed, if_pos hdone, Option.bind_some]
    exact setStatuses_writes current.edges _
  | false =>
    rw [writeAll_stopped hdone, completed, if_neg (Bool.eq_false_iff.mp hdone)]
    rfl

/-! ### What a write makes of a record -/

theorem getOwn_ownFields (k : JsString) (e : JsValue) : getOwn k (ownFields e) = property k e := by
  cases e <;> rfl

theorem getOwn_rewritten (e : JsValue) (fields : Fields) (k : JsString) :
    getOwn k (rewritten e fields) =
      if k ∈ fields.map Prod.fst then getOwn k fields else property k e := by
  have hown : getOwn k (spread [] (ownFields e)) = getOwn k (ownFields e) := property_spread_nil k _
  rw [rewritten, getOwn_spread, hown, getOwn_ownFields]

theorem mem_keys_rewritten {e : JsValue} {fields : Fields} {k : JsString} :
    k ∈ (rewritten e fields).map Prod.fst ↔
      k ∈ fields.map Prod.fst ∨ k ∈ (ownFields e).map Prod.fst := by
  constructor
  · intro h
    rcases keys_spread h with h | h
    · exact .inl h
    · rcases keys_spread h with h | h
      · exact .inr h
      · cases h
  · rintro (h | h)
    · exact mem_keys_of_spread (.inl h)
    · exact mem_keys_of_spread (.inr (mem_keys_of_spread (.inl h)))

/-- What is written over a record has the fields of the pass, then those of the record that it has read,
and for the rest those that it has been written over. -/
theorem property_writeBack {held : JsValue} (hheld : ∃ fs, held = .obj fs) (w : WriteBack) (k : JsString) :
    property k (merged (some held) w.record) =
      if k ∈ w.fields.map Prod.fst then getOwn k w.fields
      else if k ∈ (ownFields w.read).map Prod.fst then property k w.read
      else property k held := by
  obtain ⟨fs, rfl⟩ := hheld
  rw [merged, property_obj, getOwn_spread, WriteBack.record, getOwn_rewritten]
  by_cases hfields : k ∈ w.fields.map Prod.fst
  · rw [if_pos (mem_keys_rewritten.mpr (.inl hfields)), if_pos hfields, if_pos hfields]
  · by_cases hread : k ∈ (ownFields w.read).map Prod.fst
    · rw [if_pos (mem_keys_rewritten.mpr (.inr hread)), if_neg hfields, if_neg hfields, if_pos hread]
    · have hnot : k ∉ (rewritten w.read w.fields).map Prod.fst := by
        rw [mem_keys_rewritten]
        rintro (h | h)
        · exact hfields h
        · exact hread h
      rw [if_neg hnot, if_neg hfields, if_neg hread]
      rfl

/-- A write that returns changes the record that it has read, and no other. -/
theorem writeBack_call {w : WriteBack} (hid : js "id" ∉ w.fields.map Prod.fst)
    (h : w.call isDateTime doc = some doc') :
    ∃ k, idOf w.read = some k ∧ ValidGraph isDateTime doc' ∧
      (∀ id, recordById id (w.part.records doc') =
        if id = k then some (merged (recordById k (w.part.records doc)) w.record)
        else recordById id (w.part.records doc)) ∧
      ∀ other, other ≠ w.part → other.records doc' = other.records doc := by
  obtain ⟨k, hk⟩ := id_of_callGraph h
  obtain ⟨rfl, hvalid⟩ := callGraph_eq_some.mp h
  refine ⟨k, ?_, hvalid, ?_, fun other hother => GraphPart.records_put_ne hother _ _⟩
  · rw [idOf_eq_some, ← hk, WriteBack.record, getOwn_rewritten, if_neg hid]
  · intro id
    rw [GraphPart.records_put, recordById_upsert hk]

end Homelab
