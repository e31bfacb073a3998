import Homelab.SchemaSpec
import Homelab.UnraidBackend

/-! When what `validateParameters` returns is what a sound validator returns. -/
namespace Homelab
open Js

/-- What a sound validator returns. -/
structure SchemaMap.Sound (schema : SchemaMap) (params out : Fields) : Prop where
  declared : ∀ k ∈ out.map Prod.fst, k ∈ schema.entries.map Prod.fst
  satisfied : AnySchema.SatProperties out schema.entries
  filled : AnySchema.FilledProperties params out schema.entries

/-- The condition on a parameter: a default that is used satisfies its own schema, and of a value
that is given all is well where the code does not look. -/
def AnySchema.LeftParam (name : JsString) (schema : AnySchema) (raw : JsValue) : Prop :=
  if name = js "__proto__" then
    isNullish raw = true ∧ schema.fallback = .undefined ∧ schema.required = false
  else if isNullish raw then schema.fallback = .undefined ∨ schema.Sat schema.fallback
  else schema.Left raw


variable {name : JsString} {raw v : JsValue} {params out : Fields} {schema : AnySchema}
  {entries : List (JsString × AnySchema)}

/-- What becomes of a parameter in the object that is returned. -/
def keptParam (name : JsString) (checked : JsValue) : JsValue :=
  if name = js "__proto__" then .undefined else checked

theorem getOwn_keepChecked_ne {k : JsString} (hne : k ≠ name) (checked : JsValue) :
    getOwn k (keepChecked name checked out) = getOwn k out := by
  rw [keepChecked]
  split_ifs
  · rfl
  · rfl
  · exact getOwn_setOwn_ne (Ne.symm hne) checked out

theorem getOwn_keepChecked (hfree : getOwn name out = .undefined) (checked : JsValue) :
    getOwn name (keepChecked name checked out) = keptParam name checked := by
  rw [keepChecked, keptParam]
  split_ifs with hundefined hproto hproto
  · exact hfree
  · rw [hfree]
    cases checked with
    | undefined => rfl
    | _ => cases hundefined
  · exact hfree
  · exact getOwn_setOwn name checked out

theorem keys_keepChecked {k : JsString} {checked : JsValue}
    (hk : k ∈ (keepChecked name checked out).map Prod.fst) : k = name ∨ k ∈ out.map Prod.fst := by
  rw [keepChecked] at hk
  split_ifs at hk
  · exact Or.inr hk
  · exact Or.inr hk
  · exact keys_setOwn hk

theorem validateFrom_cons {rest : List (JsString × AnySchema)} {result : Fields} :
    validateFrom params out ((name, schema) :: rest) = .ok result ↔
      ∃ checked, schema.checkOne name (readKey params name) = .ok checked ∧
        validateFrom params (keepChecked name checked out) rest = .ok result :=
  LiveValue.bind_ok_iff

/-- Nothing is returned under a name that is not declared. -/
theorem validateFrom_keys {result : Fields} (h : validateFrom params out entries = .ok result)
    {k : JsString} (hk : k ∈ result.map Prod.fst) :
    k ∈ entries.map Prod.fst ∨ k ∈ out.map Prod.fst := by
  induction entries generalizing out with
  | nil =>
    obtain rfl := Except.ok.inj h
    exact Or.inr hk
  | cons f rest ih =>
    obtain ⟨name, schema⟩ := f
    obtain ⟨checked, _, hrest⟩ := validateFrom_cons.mp h
    rcases ih hrest with hmem | hmem
    · exact Or.inl (List.mem_cons_of_mem _ hmem)
    · rcases keys_keepChecked hmem with rfl | hmem
      · exact Or.inl (List.mem_cons_self ..)
      · exact Or.inr hmem

theorem validateFrom_other {result : Fields} (h : validateFrom params out entries = .ok result)
    {k : JsString} (hk : k ∉ entries.map Prod.fst) : getOwn k result = getOwn k out := by
  induction entries generalizing out with
  | nil =>
    obtain rfl := Except.ok.inj h
    rfl
  | cons f rest ih =>
    obtain ⟨name, schema⟩ := f
    obtain ⟨checked, _, hrest⟩ := validateFrom_cons.mp h
    have hne : k ≠ name := List.ne_of_not_mem_cons hk
    rw [ih hrest (List.not_mem_of_not_mem_cons hk), getOwn_keepChecked_ne hne]

/-- What is returned of a declared parameter is what the check has made of it. -/
theorem validateFrom_kept {result : Fields} (h : validateFrom params out entries = .ok result)
    (hnodup : (entries.map Prod.fst).Nodup) (hfree : ∀ f ∈ entries, getOwn f.1 out = .undefined) :
    ∀ f ∈ entries, ∃ checked, f.2.checkOne f.1 (readKey params f.1) = .ok checked ∧
      getOwn f.1 result = keptParam f.1 checked := by
  induction entries generalizing out with
  | nil => exact fun f hf => absurd hf List.not_mem_nil
  | cons f rest ih =>
    obtain ⟨name, schema⟩ := f
    obtain ⟨hhead, htail⟩ := List.nodup_cons.mp hnodup
    obtain ⟨hname, hrestFree⟩ := List.forall_mem_cons.mp hfree
    obtain ⟨checked, hchecked, hrest⟩ := validateFrom_cons.mp h
    refine List.forall_mem_cons.mpr ⟨⟨checked, hchecked, ?_⟩, ?_⟩
    · rw [validateFrom_other hrest hhead, getOwn_keepChecked hname]
    · apply ih hrest htail
      intro g hg
      have hmem : g.1 ∈ rest.map Prod.fst := List.mem_map_of_mem hg
      have hne : g.1 ≠ name := fun heq => hhead (heq ▸ hmem)
      rw [getOwn_keepChecked_ne hne]
      exact hrestFree g hg

/-- No inherited method passes the check of any type. -/
theorem not_checkOne_function : schema.checkOne name .function ≠ .ok v := by
  intro h
  cases schema <;> cases h

/-- A parameter other than `__proto__` that is not given is read as `undefined`, if it passes. -/
theorem readKey_checked (hproto : name ≠ js "__proto__")
    (h : schema.checkOne name (readKey params name) = .ok v) :
    schema.checkOne name (getOwn name params) = .ok v := by
  rw [readKey] at h
  split_ifs at h with hown
  · exact h
  · rw [getOwn_of_not_mem hown]
    rw [inherited] at h
    split_ifs at h with hmethod
    · exact absurd h not_checkOne_function
    · exact h

theorem checkOne_missing (hraw : isNullish raw = true) (h : schema.checkOne name raw = .ok v) :
    v = schema.fallback ∧ (schema.fallback = .undefined → schema.required = false) := by
  cases schema <;> exact givenOr_missing hraw h

theorem checkOne_given (hraw : isNullish raw = false) (h : schema.checkOne name raw = .ok v) :
    v = raw := by
  cases schema <;> exact ((givenOr_given hraw).mp h).2

/-- A parameter is what it has to be exactly when its condition holds. -/
theorem leftParam_iff {checked : JsValue}
    (h : schema.checkOne name (readKey params name) = .ok checked) :
    (MemberOk schema.required (keptParam name checked) schema.Sat ∧
      schema.Filled (getOwn name params) (keptParam name checked)) ↔
      schema.LeftParam name (getOwn name params) := by
  have habsent : ¬ schema.Sat .undefined := fun hsat => by cases AnySchema.sat_given hsat
  rw [AnySchema.LeftParam, keptParam]
  -- an assignment to `__proto__` stores nothing
  by_cases hproto : name = js "__proto__"
  · rw [if_pos hproto, if_pos hproto, MemberOk, or_iff_left habsent]
    cases hraw : isNullish (getOwn name params) with
    | true =>
      rw [AnySchema.filled_missing hraw]
      constructor
      · rintro ⟨⟨-, hrequired⟩, hfallback⟩
        exact ⟨rfl, hfallback.symm, hrequired⟩
      · rintro ⟨-, hfallback, hrequired⟩
        exact ⟨⟨rfl, hrequired⟩, hfallback.symm⟩
    | false =>
      constructor
      · rintro ⟨-, hfilled⟩
        exact absurd hfilled (AnySchema.not_filled_undefined hraw)
      · rintro ⟨hcontra, -⟩
        cases hcontra
  rw [if_neg hproto, if_neg hproto]
  have hchecked := readKey_checked hproto h
  cases hraw : isNullish (getOwn name params) with
  | true =>
    -- what is missing becomes its default, which nothing checks
    obtain ⟨rfl, hrequired⟩ := checkOne_missing hraw hchecked
    rw [AnySchema.filled_missing hraw, if_pos rfl, MemberOk]
    constructor
    · rintro ⟨⟨hnone, -⟩ | hsat, -⟩
      · exact Or.inl hnone
      · exact Or.inr hsat
    · rintro (hnone | hsat)
      · exact ⟨Or.inl ⟨hnone, hrequired hnone⟩, rfl⟩
      · exact ⟨Or.inr hsat, rfl⟩
  | false =>
    obtain rfl := checkOne_given hraw hchecked
    have hne : getOwn name params ≠ .undefined := by
      intro hnone
      rw [hnone] at hraw
      cases hraw
    rw [if_neg Bool.false_ne_true, ← AnySchema.left_iff schema hraw hchecked, MemberOk, or_iff_right]
    exact fun hnone => hne hnone.1

theorem satProperties_iff {fields : Fields} : AnySchema.SatProperties fields entries ↔
    ∀ f ∈ entries, MemberOk f.2.required (getOwn f.1 fields) f.2.Sat := by
  induction entries with
  | nil => exact ⟨fun _ f hf => absurd hf List.not_mem_nil, fun _ => trivial⟩
  | cons f rest ih => rw [AnySchema.SatProperties, ih, List.forall_mem_cons]

theorem filledProperties_iff {fs gs : Fields} : AnySchema.FilledProperties fs gs entries ↔
    ∀ f ∈ entries, f.2.Filled (getOwn f.1 fs) (getOwn f.1 gs) := by
  induction entries with
  | nil => exact ⟨fun _ f hf => absurd hf List.not_mem_nil, fun _ => trivial⟩
  | cons f rest ih => rw [AnySchema.FilledProperties, ih, List.forall_mem_cons]

/-- What `validateParameters` returns is sound exactly when the condition holds of every parameter
that is declared. -/
theorem validate_sound_iff (schema : SchemaMap) (params out : Fields)
    (h : schema.validate params = .ok out) :
    schema.Sound params out ↔ ∀ f ∈ schema.entries, f.2.LeftParam f.1 (getOwn f.1 params) := by
  have hkept := validateFrom_kept h schema.nodup fun _ _ => rfl
  have hparam (f : JsString × AnySchema) (hf : f ∈ schema.entries) :
      (MemberOk f.2.required (getOwn f.1 out) f.2.Sat ∧
        f.2.Filled (getOwn f.1 params) (getOwn f.1 out)) ↔
        f.2.LeftParam f.1 (getOwn f.1 params) := by
    obtain ⟨checked, hchecked, hout⟩ := hkept f hf
    rw [hout]
    exact leftParam_iff hchecked
  constructor
  · intro hsound f hf
    exact (hparam f hf).mp
      ⟨satProperties_iff.mp hsound.satisfied f hf, filledProperties_iff.mp hsound.filled f hf⟩
  · intro hleft
    refine ⟨?_, ?_, ?_⟩
    · intro k hk
      exact (validateFrom_keys h hk).resolve_right List.not_mem_nil
    · exact satProperties_iff.mpr fun f hf => ((hparam f hf).mpr (hleft f hf)).1
    · exact filledProperties_iff.mpr fun f hf => ((hparam f hf).mpr (hleft f hf)).2

/-! ### A default inside of a mount -/

theorem unraidSchema_nodup : (unraidSchema.map Prod.fst).Nodup := by decide

/-- `PARAM_SCHEMA` of `unraid.ts` as a record of schemas. -/
def unraidSchemas : SchemaMap := .ofParams unraidSchema unraidSchema_nodup

theorem validate_unraidSchemas (params : Fields) :
    unraidSchemas.validate params = validateParameters params unraidSchema :=
  validate_general unraidSchema params (by decide) (by decide) unraidSchema_nodup

/-- A deploy with one mount. -/
def mountParams (mount : Fields) : Fields :=
  [(js "host_id", .str (js "tower")), (js "container_name", .str (js "web")),
    (js "image_uri", .str (js "web:2")), (js "storage_mounts", .arr [.obj mount])]

/-- Those parameters with the defaults that the code fills in. -/
def mountOut (mount : Fields) : Fields :=
  [(js "host_id", .str (js "tower")), (js "container_name", .str (js "web")),
    (js "image_uri", .str (js "web:2")), (js "network_mode", .str (js "bridge")),
    (js "port_mappings", .arr []), (js "storage_mounts", .arr [.obj mount]), (js "env", .obj []),
    (js "health_timeout_seconds", .num (.ofNat 120))]

/-- A mount that does not say whether it is read-only. -/
def plainMount : Fields :=
  [(js "host_path", .str (js "/mnt/user/app")), (js "container_path", .str (js "/data"))]

/-- One that says it. -/
def readonlyMount : Fields := plainMount ++ [(js "readonly", .bool true)]

/-- The theorem at a mount that leaves nothing out. -/
theorem validate_sound_readonly :
    unraidSchemas.Sound (mountParams readonlyMount) (mountOut readonlyMount) ↔
      ∀ f ∈ unraidSchemas.entries, f.2.LeftParam f.1 (getOwn f.1 (mountParams readonlyMount)) :=
  validate_sound_iff unraidSchemas (mountParams readonlyMount) (mountOut readonlyMount)
    ((validate_unraidSchemas (mountParams readonlyMount)).trans rfl)

/-- The schema of a mount. -/
def mountSchema : AnySchema :=
  .object false .undefined none (some [(js "host_path", (requiredText .absolutePath).general),
    (js "container_path", (requiredText .absolutePath).general),
    (js "readonly", .boolean false (.bool false))])

/-- The default of a property of a mount is not filled in. -/
theorem validate_unsound : ¬ ∀ (schema : SchemaMap) (params out : Fields),
    schema.validate params = .ok out → schema.Sound params out := by
  intro h
  have hsound := h unraidSchemas (mountParams plainMount) (mountOut plainMount)
    ((validate_unraidSchemas (mountParams plainMount)).trans rfl)
  have hmounts : (js "storage_mounts", AnySchema.array false (.arr []) (some mountSchema)) ∈
      unraidSchemas.entries := List.mem_of_getElem? (i := 6) rfl
  have hfilled := filledProperties_iff.mp hsound.filled _ hmounts
  have hmount : mountSchema.Filled (.obj plainMount) (.obj plainMount) :=
    filledElems_iff.mp hfilled _ (List.mem_singleton_self _)
  obtain ⟨-, -, -, hreadonly, -⟩ := hmount
  cases hreadonly

end Homelab
