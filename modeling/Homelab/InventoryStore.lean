import Homelab.AdminCommands
import Homelab.JsRecord
import Homelab.LockedStore
import Homelab.Records
import Homelab.Yaml

/-! `InventoryManager` under the shared mutex: platforms are added, updated and removed in one
file, by any number of managers. -/
namespace Homelab
open Js Locked

/-- What validating and writing a document rests on: the `date-time` format, and what `ajv` says
of a document that its schema rejects. -/
structure DocumentRuntime where
  yaml : Yaml
  isDateTime : JsString → Bool
  errors : JsValue → JsString

/-- A stable code, unless the error is another one. -/
structure StoreError where
  code : Option JsString
  message : JsString
deriving DecidableEq

/-! ### `inventory-v1.json` -/

def idUnit (c : CodeUnit) : Bool := isDigitUnit c || (0x61 ≤ c && c ≤ 0x7A)

/-- `^[a-z0-9][a-z0-9-]{0,62}$` -/
def isPlatformId : JsString → Bool
  | [] => false
  | c :: rest => idUnit c && rest.length ≤ 62 && rest.all fun c => idUnit c || c = 0x2D

def platformTypes : List JsString :=
  [js "unraid", js "proxmox-ve", js "docker", js "kubernetes", js "docker-swarm", js "unifi",
    js "truenas", js "portainer"]

/-- `type: ["string", "null"]` -/
def textOrNull : Schema
  | .null => true
  | v => Schema.string (fun _ => true) v

def anyText : Schema := Schema.string fun _ => true

def connectionSchema : Schema :=
  Schema.object [] [(js "ssh_cert_path", anyText), (js "mcp_endpoint", textOrNull)] true

def platformSchema (isDateTime : JsString → Bool) : Schema :=
  Schema.object
    [js "id", js "type", js "host", js "port", js "discovered_at", js "last_seen"]
    [(js "id", Schema.string isPlatformId), (js "type", Schema.string fun s => s ∈ platformTypes),
      (js "host", anyText), (js "port", Schema.naturalBetween 1 65535), (js "ssh_host", anyText),
      (js "ssh_port", Schema.naturalBetween 1 65535), (js "discovered_at", Schema.string isDateTime),
      (js "last_seen", Schema.string isDateTime), (js "metadata", Schema.object [] [] true),
      (js "connection", connectionSchema)]
    false

def inventorySchema (isDateTime : JsString → Bool) : Schema :=
  Schema.object [js "version", js "platforms"]
    [(js "version", Schema.string fun s => s = js "1.0"),
      (js "platforms", Schema.array (platformSchema isDateTime))]
    false

/-! ### The file -/

variable (rt : DocumentRuntime)

def invalidInventory (message : JsString) : StoreError := ⟨some (js "INVALID_INVENTORY"), message⟩

def inventoryValue (platforms : List JsValue) : JsValue :=
  .obj [(js "version", .str (js "1.0")), (js "platforms", .arr platforms)]

/-- `readFile`, of a file that can be read or is absent -/
def readInventory (file : Option JsString) : Except StoreError (List JsValue) :=
  match file with
  | none => .ok []
  | some raw =>
    match rt.yaml.load raw with
    | .error message => .error (invalidInventory (js "failed to parse inventory YAML: " ++ message))
    | .ok .null => .ok []
    | .ok .undefined => .ok []
    | .ok parsed =>
      if inventorySchema rt.isDateTime parsed then
        match property (js "platforms") parsed with
        | .arr platforms => .ok platforms
        | _ => .error ⟨none, js "file.platforms is not iterable"⟩
      else .error (invalidInventory (js "inventory failed schema validation: " ++ rt.errors parsed))

/-- `writeFile`, up to the text. -/
def writeInventory (platforms : List JsValue) : Except StoreError (Option JsString) :=
  let file := inventoryValue platforms
  if inventorySchema rt.isDateTime file then
    match rt.yaml.dump file with
    | .error message => .error ⟨none, message⟩
    | .ok text => .ok (some text)
  else .error (invalidInventory (js "refusing to write invalid inventory: " ++ rt.errors file))

/-! ### Calls -/

/-- A call, and the time that it reads under the lock. -/
inductive InventoryOp
  | addPlatform (input : Fields) (now : JsString)
  | updatePlatform (id : JsString) (update : Fields) (now : JsString)
  | removePlatform (id : JsString)

/-- `p.id === id`; the ids of a document that has been read are texts. -/
def isId (id p : JsValue) : Bool :=
  match id with
  | .str s => hasId s p
  | _ => false

def addPlatform (input : Fields) (now : JsString) (platforms : List JsValue) :
    Except StoreError (Option (List JsValue) × JsValue) :=
  let id := getOwn (js "id") input
  if platforms.any (isId id) then
    .error ⟨some (js "DUPLICATE_ID"), js "platform id already exists: " ++ id.coerce⟩
  else
    let platform := setOwn (js "last_seen") (nullish (getOwn (js "last_seen") input) (.str now))
      (setOwn (js "discovered_at") (nullish (getOwn (js "discovered_at") input) (.str now))
        (spread [] input))
    .ok (some (platforms ++ [.obj platform]), .undefined)

/-- The platform with the update merged into it. -/
def mergePlatform (existing : JsValue) (update : Fields) (now : JsString) : JsValue :=
  .obj (setOwn (js "last_seen") (nullish (getOwn (js "last_seen") update) (.str now))
    (setOwn (js "id") (property (js "id") existing) (spread (ownFields existing) update)))

def updatePlatform (id : JsString) (update : Fields) (now : JsString) (platforms : List JsValue) :
    Except StoreError (Option (List JsValue) × JsValue) :=
  match platforms.findIdx? (hasId id) with
  | none => .error ⟨some (js "NOT_FOUND"), js "platform not found: " ++ id⟩
  | some idx =>
    let merged := mergePlatform (platforms.getD idx .undefined) update now
    .ok (some (platforms.set idx merged), merged)

/-- `InventoryManager.removePlatform` -/
def removePlatformById (id : JsString) (platforms : List JsValue) :
    Except StoreError (Option (List JsValue) × JsValue) :=
  match platforms.findIdx? (hasId id) with
  | none => .ok (none, .undefined)
  | some idx => .ok (some (platforms.eraseIdx idx), .undefined)

def runInventory : InventoryOp → List JsValue → Except StoreError (Option (List JsValue) × JsValue)
  | .addPlatform input now => addPlatform input now
  | .updatePlatform id update now => updatePlatform id update now
  | .removePlatform id => removePlatformById id

def inventoryStore : DocStore (Option JsString) (List JsValue) InventoryOp JsValue StoreError where
  read := readInventory rt
  run := runInventory
  write := writeInventory rt

/-! ### Ids -/

/-- The id of a record, if it is a text. -/
def idOf (p : JsValue) : Option JsString :=
  match property (js "id") p with
  | .str s => some s
  | _ => none

abbrev UniqueIds (records : List JsValue) : Prop := Records.Unique idOf records

/-- The id that a call is about. -/
def InventoryOp.id : InventoryOp → Option JsString
  | .addPlatform input _ => idOf (.obj input)
  | .updatePlatform id .. => some id
  | .removePlatform id => some id

/-- What a call keeps of the records: ids stay apart, and those of other ids stay as they are. -/
structure KeepsRecords (id : Option JsString) (records records' : List JsValue) : Prop where
  unique : UniqueIds records → UniqueIds records'
  others : Records.others idOf id records' = Records.others idOf id records

variable {rt} {records : List JsValue} {id : JsString}

theorem hasId_iff {p : JsValue} : hasId id p = true ↔ idOf p = some id := by
  rw [hasId, idOf]
  cases property (js "id") p <;> simp

theorem idOf_eq_of_property {p q : JsValue} (h : property (js "id") p = property (js "id") q) :
    idOf p = idOf q := by
  rw [idOf, idOf, h]

theorem idOf_eq_some {p : JsValue} : idOf p = some id ↔ property (js "id") p = .str id := by
  rw [idOf]
  cases property (js "id") p <;> simp

/-- A record whose id no other has. -/
theorem not_mem_of_not_isId {p : JsValue} (hp : idOf p ≠ none)
    (h : records.any (isId (property (js "id") p)) = false) : idOf p ∉ records.map idOf := by
  obtain ⟨id, hid⟩ := Option.ne_none_iff_exists'.mp hp
  rw [idOf_eq_some.mp hid] at h
  intro hmem
  obtain ⟨q, hq, hsame⟩ := List.mem_map.mp hmem
  have hnot := List.any_eq_false.mp h q hq
  rw [hid] at hsame
  exact hnot (hasId_iff.mpr hsame)

theorem keepsRecords_snoc {p : JsValue} (hp : idOf p ≠ none)
    (h : records.any (isId (property (js "id") p)) = false) :
    KeepsRecords (idOf p) records (records ++ [p]) where
  unique hunique := Records.unique_snoc hunique (not_mem_of_not_isId hp h)
  others := Records.others_snoc rfl

/-- A record that is replaced by one of its id. -/
theorem keepsRecords_set {idx : ℕ} {f : JsValue → JsValue} (hidx : records.findIdx? (hasId id) = some idx)
    (hf : ∀ p, idOf p = some id → idOf (f p) = some id) :
    KeepsRecords (some id) records (records.set idx (f (records.getD idx .undefined))) ∧
      (records.set idx (f (records.getD idx .undefined))).map idOf = records.map idOf := by
  obtain ⟨as, p, bs, rfl, rfl, hp⟩ := Records.cut_of_findIdx? hidx
  have hid : idOf p = some id := hasId_iff.mp hp
  have hget : (as ++ p :: bs).getD as.length .undefined = p := by
    rw [List.getD_eq_getElem?_getD, Records.getElem?_cut, Option.getD_some]
  have hsame : idOf (f p) = idOf p := by rw [hf p hid, hid]
  rw [hget, Records.set_cut]
  refine ⟨⟨?_, ?_⟩, Records.map_replace hsame⟩
  · exact Records.unique_replace hsame
  · exact Records.others_replace hid (hf p hid)

theorem keepsRecords_eraseIdx {idx : ℕ} (hidx : records.findIdx? (hasId id) = some idx) :
    KeepsRecords (some id) records (records.eraseIdx idx) := by
  obtain ⟨as, p, bs, rfl, rfl, hp⟩ := Records.cut_of_findIdx? hidx
  rw [Records.eraseIdx_cut]
  exact ⟨Records.unique_remove, Records.others_remove (hasId_iff.mp hp)⟩

theorem keepsRecords_refl (id : Option JsString) : KeepsRecords id records records := ⟨fun h => h, rfl⟩

/-! ### What the calls keep -/

/-- A record that its schema accepts has a text as its id. -/
theorem idOf_of_schema {required : List JsString} {properties : List (JsString × Schema)}
    {additional : Bool} {accepts : JsString → Bool} {p : JsValue}
    (h : Schema.object required properties additional p = true) (hid : js "id" ∈ required)
    (htext : (js "id", Schema.string accepts) ∈ properties) : idOf p ≠ none := by
  have hstring := Schema.property_of_object h hid htext
  cases hproperty : property (js "id") p with
  | str s =>
    rw [idOf_eq_some.mpr hproperty]
    exact Option.some_ne_none s
  | _ =>
    rw [hproperty] at hstring
    cases hstring

/-- What is written are platforms that have ids. -/
theorem idOf_of_writeInventory {platforms : List JsValue} {f : Option JsString}
    (h : writeInventory rt platforms = .ok f) : ∀ p ∈ platforms, idOf p ≠ none := by
  intro p hp
  rw [writeInventory] at h
  split_ifs at h with hschema
  have hplatforms : Schema.array (platformSchema rt.isDateTime) (.arr platforms) = true :=
    Schema.property_of_object hschema (List.mem_cons_of_mem _ (List.mem_singleton_self _))
      (List.mem_cons_of_mem _ (List.mem_singleton_self _))
  have hplatform := List.all_eq_true.mp hplatforms p hp
  exact idOf_of_schema hplatform (by simp) (List.mem_cons_self ..)

/-- `addPlatform` takes the id that it is given. -/
theorem idOf_addPlatform {input : Fields} {discovered seen : JsValue} :
    property (js "id") (.obj (setOwn (js "last_seen") seen
      (setOwn (js "discovered_at") discovered (spread [] input)))) = getOwn (js "id") input := by
  have hseen : js "last_seen" ≠ js "id" := by decide
  have hdiscovered : js "discovered_at" ≠ js "id" := by decide
  rw [property_obj, getOwn_setOwn_ne hseen, getOwn_setOwn_ne hdiscovered, getOwn_spread]
  by_cases hmem : js "id" ∈ input.map Prod.fst
  · rw [if_pos hmem]
  · rw [if_neg hmem, getOwn_of_not_mem hmem]
    rfl

/-- `updatePlatform` keeps the id, whatever the update holds. -/
theorem idOf_mergePlatform {p : JsValue} {update : Fields} {now : JsString} :
    idOf (mergePlatform p update now) = idOf p := by
  have hseen : js "last_seen" ≠ js "id" := by decide
  apply idOf_eq_of_property
  rw [mergePlatform, property_obj, getOwn_setOwn_ne hseen, getOwn_setOwn]

/-- `js-yaml` reads what it has written of a document that the schema accepts. -/
def LoadsDocuments (yaml : Yaml) (schema : Schema) : Prop :=
  ∀ document text, schema document = true → yaml.dump document = .ok text →
    yaml.load text = .ok document

theorem inventoryStore_readsBack (hyaml : LoadsDocuments rt.yaml (inventorySchema rt.isDateTime)) :
    (inventoryStore rt).ReadsBack := by
  intro platforms file hwrite
  change writeInventory rt platforms = .ok file at hwrite
  rw [writeInventory] at hwrite
  split_ifs at hwrite with hschema
  cases hdump : rt.yaml.dump (inventoryValue platforms) with
  | error message =>
    rw [hdump] at hwrite
    cases hwrite
  | ok text =>
    rw [hdump] at hwrite
    cases hwrite
    have hload := hyaml _ _ hschema hdump
    change readInventory rt (some text) = .ok platforms
    rw [readInventory]
    rw [hload]
    change (if inventorySchema rt.isDateTime (inventoryValue platforms) = true then _ else _) = _
    rw [if_pos hschema]
    rfl

/-- What a call on the platforms keeps. -/
structure KeepsPlatforms (op : InventoryOp) (platforms platforms' : List JsValue) : Prop where
  records : KeepsRecords op.id platforms platforms'
  ids : ∀ id update now, op = .updatePlatform id update now →
    platforms'.map idOf = platforms.map idOf

theorem runInventory_keeps {op : InventoryOp} {platforms : List JsValue} {out : Option (List JsValue)}
    {r : JsValue} (h : runInventory op platforms = .ok (out, r))
    (hwrite : ∀ d, out = some d → ∃ f, writeInventory rt d = .ok f) :
    KeepsPlatforms op platforms (out.getD platforms) := by
  cases op with
  | addPlatform input now =>
    change addPlatform input now platforms = .ok (out, r) at h
    rw [addPlatform] at h
    split_ifs at h with hduplicate
    cases h
    obtain ⟨f, hf⟩ := hwrite _ rfl
    have hid := idOf_of_writeInventory hf _ (List.mem_append_right _ (List.mem_singleton_self _))
    rw [Bool.not_eq_true, ← idOf_addPlatform] at hduplicate
    refine ⟨?_, fun id update time hop => by cases hop⟩
    have hkeeps := keepsRecords_snoc hid hduplicate
    rw [idOf_eq_of_property (q := .obj input) idOf_addPlatform] at hkeeps
    exact hkeeps
  | updatePlatform id update now =>
    change updatePlatform id update now platforms = .ok (out, r) at h
    rw [updatePlatform] at h
    cases hidx : platforms.findIdx? (hasId id) with
    | none =>
      rw [hidx] at h
      cases h
    | some idx =>
      rw [hidx] at h
      cases h
      obtain ⟨hkeeps, hids⟩ := keepsRecords_set (f := fun p => mergePlatform p update now) hidx
        fun p hp => idOf_mergePlatform.trans hp
      exact ⟨hkeeps, fun _ _ _ _ => hids⟩
  | removePlatform id =>
    change removePlatformById id platforms = .ok (out, r) at h
    rw [removePlatformById] at h
    refine ⟨?_, fun id update time hop => by cases hop⟩
    cases hidx : platforms.findIdx? (hasId id) with
    | none =>
      rw [hidx] at h
      cases h
      exact keepsRecords_refl _
    | some idx =>
      rw [hidx] at h
      cases h
      exact keepsRecords_eraseIdx hidx

end Homelab
