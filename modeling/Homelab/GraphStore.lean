import Homelab.InventoryStore

/-! `GraphStore` under its mutex: entities and edges are merged into one document. -/
namespace Homelab
open Js Locked

/-! ### `inventory-graph-v2.json` -/

/-- `minLength: 1` -/
def someText : Schema := Schema.string fun s => s ≠ []

def statusSchema : Schema :=
  Schema.string fun s => s ∈ [js "active", js "stale", js "gone"]

def entitySchema (isDateTime : JsString → Bool) : Schema :=
  Schema.object
    [js "id", js "kind", js "name", js "attributes", js "source", js "discovered_at",
      js "last_seen", js "status"]
    [(js "id", someText), (js "kind", someText), (js "name", someText),
      (js "attributes", Schema.object [] [] true), (js "source", someText),
      (js "platformId", anyText), (js "discovered_at", Schema.string isDateTime),
      (js "last_seen", Schema.string isDateTime), (js "status", statusSchema)]
    false

def edgeSchema (isDateTime : JsString → Bool) : Schema :=
  Schema.object
    [js "id", js "from", js "to", js "type", js "discovered_at", js "last_seen", js "status"]
    [(js "id", someText), (js "from", someText), (js "to", someText), (js "type", someText),
      (js "attributes", Schema.object [] [] true), (js "discovered_at", Schema.string isDateTime),
      (js "last_seen", Schema.string isDateTime), (js "status", statusSchema)]
    false

/-- `const: 2` -/
def versionTwo : Schema
  | .num x => x.strictEq (.ofNat 2)
  | _ => false

def graphSchema (isDateTime : JsString → Bool) : Schema :=
  Schema.object [js "version", js "entities", js "edges"]
    [(js "version", versionTwo), (js "entities", Schema.array (entitySchema isDateTime)),
      (js "edges", Schema.array (edgeSchema isDateTime))]
    false

/-! ### The file -/

variable (rt : DocumentRuntime)

structure GraphDocument where
  entities : List JsValue
  edges : List JsValue

def GraphDocument.value (doc : GraphDocument) : JsValue :=
  .obj [(js "version", .num (.ofNat 2)), (js "entities", .arr doc.entities),
    (js "edges", .arr doc.edges)]

def invalidGraph (message : JsString) : StoreError := ⟨some (js "INVALID_GRAPH"), message⟩

/-- `readFile`, of a file that can be read or is absent -/
def readGraph (file : Option JsString) : Except StoreError GraphDocument :=
  match file with
  | none => .ok ⟨[], []⟩
  | some raw =>
    match rt.yaml.load raw with
    | .error message => .error (invalidGraph (js "failed to parse graph YAML: " ++ message))
    | .ok .null => .ok ⟨[], []⟩
    | .ok .undefined => .ok ⟨[], []⟩
    | .ok parsed =>
      if graphSchema rt.isDateTime parsed then
        match property (js "entities") parsed, property (js "edges") parsed with
        | .arr entities, .arr edges => .ok ⟨entities, edges⟩
        | _, _ => .error ⟨none, js "object is not iterable"⟩
      else .error (invalidGraph (js "graph failed schema validation: " ++ rt.errors parsed))

/-- `writeFile`, up to the text. -/
def writeGraph (doc : GraphDocument) : Except StoreError (Option JsString) :=
  if graphSchema rt.isDateTime doc.value then
    match rt.yaml.dump doc.value with
    | .error message => .error ⟨none, message⟩
    | .ok text => .ok (some text)
  else .error (invalidGraph (js "refusing to write invalid graph: " ++ rt.errors doc.value))

/-! ### Calls -/

/-- The record merged over the one of its id, or added. -/
def upsert (record : Fields) (records : List JsValue) : List JsValue :=
  match records.findIdx? (isId (getOwn (js "id") record)) with
  | some idx =>
    records.set idx (.obj (spread (ownFields (records.getD idx .undefined)) record))
  | none => records ++ [.obj (spread [] record)]

inductive GraphOp
  | upsertEntity (entity : Fields)
  | upsertEdge (edge : Fields)

def runGraph (op : GraphOp) (doc : GraphDocument) :
    Except StoreError (Option GraphDocument × JsValue) :=
  match op with
  | .upsertEntity entity => .ok (some { doc with entities := upsert entity doc.entities }, .undefined)
  | .upsertEdge edge => .ok (some { doc with edges := upsert edge doc.edges }, .undefined)

def graphStore : DocStore (Option JsString) GraphDocument GraphOp JsValue StoreError where
  read := readGraph rt
  run := runGraph
  write := writeGraph rt

/-! ### What the calls keep -/

variable {rt}

theorem property_spread_nil (k : JsString) (record : Fields) :
    property k (.obj (spread [] record)) = getOwn k record := by
  rw [property_obj, getOwn_spread]
  by_cases hmem : k ∈ record.map Prod.fst
  · rw [if_pos hmem]
  · rw [if_neg hmem, getOwn_of_not_mem hmem]
    rfl

/-- A record that is merged has the id that it is merged by. -/
theorem idOf_spread {id : JsString} {fs record : Fields} (h : getOwn (js "id") record = .str id) :
    idOf (.obj (spread fs record)) = some id := by
  apply idOf_eq_some.mpr
  rw [property_obj, getOwn_spread_of_defined, h]
  rw [h]
  exact JsValue.noConfusion

theorem upsert_keeps {record : Fields} {records : List JsValue}
    (h : ∀ p ∈ upsert record records, idOf p ≠ none) :
    KeepsRecords (idOf (.obj record)) records (upsert record records) := by
  rw [upsert] at h ⊢
  cases hidx : records.findIdx? (isId (getOwn (js "id") record)) with
  | none =>
    rw [hidx] at h
    dsimp only at h ⊢
    have hid := h _ (List.mem_append_right _ (List.mem_singleton_self _))
    have hsame : property (js "id") (.obj (spread [] record)) = property (js "id") (.obj record) :=
      property_spread_nil _ _
    have hother : records.any (isId (property (js "id") (.obj (spread [] record)))) = false := by
      rw [hsame, List.any_eq_false]
      intro q hq
      exact Bool.eq_false_iff.mp (List.findIdx?_eq_none_iff.mp hidx q hq)
    have hkeeps := keepsRecords_snoc hid hother
    rw [idOf_eq_of_property hsame] at hkeeps
    exact hkeeps
  | some idx =>
    dsimp only
    cases hid : getOwn (js "id") record with
    | str id =>
      rw [hid] at hidx
      have hrecord : idOf (.obj record) = some id := idOf_eq_some.mpr hid
      rw [hrecord]
      exact (keepsRecords_set (f := fun p => .obj (spread (ownFields p) record)) hidx
        fun p _ => idOf_spread hid).1
    | _ =>
      rw [hid] at hidx
      have hnever := (List.findIdx?_eq_some_iff_getElem.mp hidx)
      obtain ⟨hi, hp, _⟩ := hnever
      cases hp

/-- What is written are entities and edges that have ids. -/
theorem idOf_of_writeGraph {doc : GraphDocument} {f : Option JsString} (h : writeGraph rt doc = .ok f) :
    (∀ p ∈ doc.entities, idOf p ≠ none) ∧ ∀ p ∈ doc.edges, idOf p ≠ none := by
  rw [writeGraph] at h
  split_ifs at h with hschema
  have hentities : Schema.array (entitySchema rt.isDateTime) (.arr doc.entities) = true :=
    Schema.property_of_object hschema (List.mem_cons_of_mem _ (List.mem_cons_self ..))
      (List.mem_cons_of_mem _ (List.mem_cons_self ..))
  have hedges : Schema.array (edgeSchema rt.isDateTime) (.arr doc.edges) = true :=
    Schema.property_of_object (k := js "edges") hschema (by simp) (by simp)
  constructor
  · intro p hp
    exact idOf_of_schema (List.all_eq_true.mp hentities p hp) (List.mem_cons_self ..)
      (List.mem_cons_self ..)
  · intro p hp
    exact idOf_of_schema (List.all_eq_true.mp hedges p hp) (List.mem_cons_self ..)
      (List.mem_cons_self ..)

theorem graphStore_readsBack (hyaml : LoadsDocuments rt.yaml (graphSchema rt.isDateTime)) :
    (graphStore rt).ReadsBack := by
  intro doc file hwrite
  change writeGraph rt doc = .ok file at hwrite
  rw [writeGraph] at hwrite
  split_ifs at hwrite with hschema
  cases hdump : rt.yaml.dump doc.value with
  | error message =>
    rw [hdump] at hwrite
    cases hwrite
  | ok text =>
    rw [hdump] at hwrite
    cases hwrite
    have hload := hyaml _ _ hschema hdump
    change readGraph rt (some text) = .ok doc
    rw [readGraph, hload]
    change (if graphSchema rt.isDateTime doc.value = true then _ else _) = _
    rw [if_pos hschema]
    rfl

def UniqueGraph (doc : GraphDocument) : Prop := UniqueIds doc.entities ∧ UniqueIds doc.edges

/-- What a call on the graph keeps. -/
def KeepsGraph : GraphOp → GraphDocument → GraphDocument → Prop
  | .upsertEntity entity, doc, doc' =>
    KeepsRecords (idOf (.obj entity)) doc.entities doc'.entities ∧ doc'.edges = doc.edges
  | .upsertEdge edge, doc, doc' =>
    KeepsRecords (idOf (.obj edge)) doc.edges doc'.edges ∧ doc'.entities = doc.entities

theorem keepsGraph_refl (op : GraphOp) (doc : GraphDocument) : KeepsGraph op doc doc := by
  cases op with
  | upsertEntity entity => exact ⟨keepsRecords_refl _, rfl⟩
  | upsertEdge edge => exact ⟨keepsRecords_refl _, rfl⟩

theorem runGraph_keeps {op : GraphOp} {doc : GraphDocument} {out : Option GraphDocument} {r : JsValue}
    (hunique : UniqueGraph doc) (h : runGraph op doc = .ok (out, r))
    (hwrite : ∀ d, out = some d → ∃ f, writeGraph rt d = .ok f) :
    UniqueGraph (out.getD doc) ∧ KeepsGraph op doc (out.getD doc) := by
  cases op with
  | upsertEntity entity =>
    cases h
    obtain ⟨f, hf⟩ := hwrite _ rfl
    have hkeeps := upsert_keeps (idOf_of_writeGraph hf).1
    exact ⟨⟨hkeeps.unique hunique.1, hunique.2⟩, hkeeps, rfl⟩
  | upsertEdge edge =>
    cases h
    obtain ⟨f, hf⟩ := hwrite _ rfl
    have hkeeps := upsert_keeps (idOf_of_writeGraph hf).2
    exact ⟨⟨hunique.1, hkeeps.unique hunique.2⟩, hkeeps, rfl⟩

def labDocuments : DocumentRuntime := ⟨jsonYaml, fun _ => true, fun _ => []⟩

def nasSeen : JsString := js "2026-05-01T00:00:00.000Z"

def nasPlatform : Fields :=
  [(js "id", .str (js "nas")), (js "type", .str (js "unraid")), (js "host", .str (js "10.0.0.2")),
    (js "port", .num (.ofNat 443)), (js "discovered_at", .str nasSeen), (js "last_seen", .str nasSeen)]

def nasEntity : Fields :=
  [(js "id", .str (js "nas")), (js "kind", .str (js "node")), (js "name", .str (js "nas")),
    (js "attributes", .obj []), (js "source", .str (js "unraid")),
    (js "discovered_at", .str nasSeen), (js "last_seen", .str nasSeen),
    (js "status", .str (js "active"))]

def nasInventory : JsString := jsonText (inventoryValue [.obj nasPlatform])

def nasGraph : JsString := jsonText (GraphDocument.value ⟨[.obj nasEntity], []⟩)

theorem nasPlatform_runs :
    (lockedFile (inventoryStore labDocuments).plan).Runs ⟨none, none⟩ (⟨some nasInventory, none⟩,
      [⟨.addPlatform nasPlatform nasSeen, .settled (.returned .undefined)⟩]) := by
  have hstart : (lockedFile (inventoryStore labDocuments).plan).Runs ⟨none, none⟩ (⟨none, none⟩, []) :=
    .refl
  have hplan : (inventoryStore labDocuments).plan (.addPlatform nasPlatform nasSeen) none =
      .writes (some nasInventory) .undefined := by
    with_unfolding_all rfl
  exact Runs.writes_last hstart (fun _ hb => absurd hb List.not_mem_nil) hplan

theorem nasEntity_runs :
    (lockedFile (graphStore labDocuments).plan).Runs ⟨none, none⟩ (⟨some nasGraph, none⟩,
      [⟨.upsertEntity nasEntity, .settled (.returned .undefined)⟩]) := by
  have hstart : (lockedFile (graphStore labDocuments).plan).Runs ⟨none, none⟩ (⟨none, none⟩, []) :=
    .refl
  have hplan : (graphStore labDocuments).plan (.upsertEntity nasEntity) none =
      .writes (some nasGraph) .undefined := by
    with_unfolding_all rfl
  exact Runs.writes_last hstart (fun _ hb => absurd hb List.not_mem_nil) hplan

theorem loadsDocuments_jsonYaml (schema : Schema) : LoadsDocuments jsonYaml schema :=
  fun _ _ _ h => jsonYaml_load_dump h

end Homelab
