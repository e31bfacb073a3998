import Homelab.BackupVerify
import Homelab.DeployParams
import Homelab.JsRecord

/-! `validateParameters` over every schema that `types.ts` admits. The backends need fewer: the
functions of `DeployParams` are these at the schemas of the backends. -/
namespace Homelab
open Js

/-! ### Schemas -/

/-- What an `enum` lists. -/
inductive EnumValue
  | text (s : JsString)
  | number (x : JsNumber)

def EnumValue.toText : EnumValue → JsString
  | .text s => s
  | .number x => x.toText

/-- The value is this text. -/
def EnumValue.isText (s : JsString) : EnumValue → Bool
  | .text t => t = s
  | .number _ => false

/-- The value is this number, which is finite. -/
def EnumValue.isNumber (x : JsNumber) : EnumValue → Bool
  | .text _ => false
  | .number y => x.strictEq y

/-- `ParamSchema`, by its `type` and with what the code reads of that type; a default that is not
given is `undefined`, a regular expression is its test, and the properties stand as
`Object.entries` lists them. The two other shapes of `items` are schemas too. -/
inductive AnySchema
  | string (required : Bool) (fallback : JsValue) (enum : Option (List EnumValue))
      (regex : Option (JsString → Bool)) (format : Option ParamFormat)
  | number (required : Bool) (fallback : JsValue) (range : Option (JsNumber × JsNumber))
      (enum : Option (List EnumValue))
  | boolean (required : Bool) (fallback : JsValue)
  | array (required : Bool) (fallback : JsValue) (items : Option AnySchema)
  | object (required : Bool) (fallback : JsValue) (additionalProperties : Option AnySchema)
      (properties : Option (List (JsString × AnySchema)))

def AnySchema.required : AnySchema → Bool
  | .string required _ _ _ _ => required
  | .number required _ _ _ => required
  | .boolean required _ => required
  | .array required _ _ => required
  | .object required _ _ _ => required

def AnySchema.fallback : AnySchema → JsValue
  | .string _ fallback _ _ _ => fallback
  | .number _ fallback _ _ => fallback
  | .boolean _ fallback => fallback
  | .array _ fallback _ => fallback
  | .object _ fallback _ _ => fallback

/-- A record of schemas: no name is declared twice. -/
structure SchemaMap where
  entries : List (JsString × AnySchema)
  nodup : (entries.map Prod.fst).Nodup

/-! ### Checks -/

/-- `obj[k]` for a plain object: an own property, or what every object inherits. -/
def readKey (fs : Fields) (k : JsString) : JsValue :=
  if k ∈ fs.map Prod.fst then getOwn k fs else inherited k

def checkEnum (name : JsString) (enum : Option (List EnumValue)) (included : EnumValue → Bool) :
    Except DeployError Unit :=
  if enum.any fun values => !values.any included then
    paramError name (js "must be one of [" ++ joinComma ((enum.getD []).map EnumValue.toText) ++ js "]")
  else .ok ()

def checkRegex (name : JsString) (regex : Option (JsString → Bool)) (s : JsString) :
    Except DeployError Unit :=
  if regex.any fun test => !test s then paramError name (js "does not match required regex")
  else .ok ()

def checkRange (name : JsString) (range : Option (JsNumber × JsNumber)) (x : JsNumber) :
    Except DeployError Unit :=
  match range with
  | none => .ok ()
  | some (min, max) =>
    if x.lt min || max.lt x then
      paramError name (js "must be in [" ++ min.toText ++ js "," ++ max.toText ++ js "]")
    else .ok ()

/-- `case 'string'` -/
def checkText (name : JsString) (enum : Option (List EnumValue)) (regex : Option (JsString → Bool))
    (format : Option ParamFormat) : JsValue → Except DeployError Unit
  | .str s => do
    checkEnum name enum (EnumValue.isText s)
    checkRegex name regex s
    format.elim (.ok ()) (checkFormat name s)
  | _ => paramError name (js "must be a string")

/-- `case 'number'` -/
def checkFinite (name : JsString) (range : Option (JsNumber × JsNumber))
    (enum : Option (List EnumValue)) : JsValue → Except DeployError Unit
  | .num x =>
    if x.isFinite then do
      checkRange name range x
      checkEnum name enum (EnumValue.isNumber x)
    else paramError name (js "must be a finite number")
  | _ => paramError name (js "must be a finite number")

mutual
/-- `checkOne` -/
def AnySchema.checkOne (name : JsString) (raw : JsValue) : AnySchema → Except DeployError JsValue
  | .string required fallback enum regex format =>
    givenOr name required fallback raw (checkText name enum regex format raw)
  | .number required fallback range enum =>
    givenOr name required fallback raw (checkFinite name range enum raw)
  | .boolean required fallback => givenOr name required fallback raw (checkBoolean name raw)
  | .array required fallback items =>
    givenOr name required fallback raw do
      let elems ← arrayElements name raw
      AnySchema.checkItems name elems items
  | .object required fallback additional properties =>
    givenOr name required fallback raw do
      let fields ← objectFields name raw
      AnySchema.checkEntries name fields additional
      AnySchema.checkDeclared name fields properties

/-- The elements of an array. Of the schema of a text only the regular expression is looked at,
and of the schema of an object only its properties. -/
def AnySchema.checkItems (name : JsString) (elems : List JsValue) :
    Option AnySchema → Except DeployError Unit
  | none => .ok ()
  | some (.string _ _ _ regex _) => elems.zipIdx.forM fun e =>
    checkText (elementName name e.2) none regex none e.1
  | some (.object _ _ _ (some properties)) => elems.zipIdx.forM fun e => do
    let fields ← objectFields (elementName name e.2) e.1
    AnySchema.checkProperties (elementName name e.2) fields properties
  | some items => elems.zipIdx.forM fun e =>
    (AnySchema.checkOne (elementName name e.2) e.1 items).map fun _ => ()

/-- Every entry of an object, declared or not, against `additionalProperties`. -/
def AnySchema.checkEntries (name : JsString) (fields : Fields) :
    Option AnySchema → Except DeployError Unit
  | none => .ok ()
  | some schema => fields.forM fun f =>
    (AnySchema.checkOne (memberName name f.1) f.2 schema).map fun _ => ()

def AnySchema.checkDeclared (name : JsString) (fields : Fields) :
    Option (List (JsString × AnySchema)) → Except DeployError Unit
  | none => .ok ()
  | some properties => AnySchema.checkProperties name fields properties

def AnySchema.checkProperties (name : JsString) (fields : Fields) :
    List (JsString × AnySchema) → Except DeployError Unit
  | [] => .ok ()
  | (key, schema) :: rest => do
    let _ ← AnySchema.checkOne (memberName name key) (readKey fields key) schema
    AnySchema.checkProperties name fields rest
end

/-- `if (checked !== undefined) out[name] = checked`; `__proto__` becomes no property. -/
def keepChecked (name : JsString) (checked : JsValue) (out : Fields) : Fields :=
  if isUndefined checked then out
  else if name = js "__proto__" then out
  else setOwn name checked out

/-- The loop of `validateParameters` -/
def validateFrom (params out : Fields) : List (JsString × AnySchema) → Except DeployError Fields
  | [] => .ok out
  | (name, schema) :: rest => do
    let checked ← schema.checkOne name (readKey params name)
    validateFrom params (keepChecked name checked out) rest

/-- `validateParameters` -/
def SchemaMap.validate (schema : SchemaMap) (params : Fields) : Except DeployError Fields :=
  validateFrom params [] schema.entries

/-! ### The schemas of the backends -/

mutual
/-- A schema of a backend as one of all. -/
def ParamSchema.general : ParamSchema → AnySchema
  | .string required fallback allowed regex format =>
    .string required fallback (allowed.map (List.map EnumValue.text)) regex format
  | .number required fallback range =>
    .number required fallback (range.map fun r => (.ofNat r.1, .ofNat r.2)) none
  | .boolean required fallback => .boolean required fallback
  | .array required fallback items => .array required fallback (ParamSchema.generalItems items)
  | .object required fallback additional properties =>
    .object required fallback (ParamSchema.generalItems additional)
      (ParamSchema.generalDeclared properties)

def ParamSchema.generalItems : Option ParamSchema → Option AnySchema
  | none => none
  | some schema => some schema.general

def ParamSchema.generalDeclared :
    Option (List (JsString × ParamSchema)) → Option (List (JsString × AnySchema))
  | none => none
  | some properties => some (ParamSchema.generalProperties properties)

def ParamSchema.generalProperties : List (JsString × ParamSchema) → List (JsString × AnySchema)
  | [] => []
  | (key, schema) :: rest => (key, schema.general) :: ParamSchema.generalProperties rest
end

mutual
/-- No property of the schema, at any depth, has a name that every object inherits. -/
def ParamSchema.ordinary : ParamSchema → Bool
  | .array _ _ items => ParamSchema.ordinaryItems items
  | .object _ _ additional properties =>
    ParamSchema.ordinaryItems additional && ParamSchema.ordinaryDeclared properties
  | _ => true

def ParamSchema.ordinaryItems : Option ParamSchema → Bool
  | none => true
  | some schema => schema.ordinary

def ParamSchema.ordinaryDeclared : Option (List (JsString × ParamSchema)) → Bool
  | none => true
  | some properties => ParamSchema.ordinaryProperties properties

def ParamSchema.ordinaryProperties : List (JsString × ParamSchema) → Bool
  | [] => true
  | (key, schema) :: rest =>
    isUndefined (inherited key) && schema.ordinary && ParamSchema.ordinaryProperties rest
end

theorem readKey_ordinary {k : JsString} (hk : isUndefined (inherited k) = true) (fields : Fields) :
    readKey fields k = getOwn k fields := by
  rw [readKey]
  split_ifs with hown
  · rfl
  · rw [getOwn_of_not_mem hown]
    cases hinherited : inherited k with
    | undefined => rfl
    | _ =>
      rw [hinherited] at hk
      cases hk

variable {name : JsString} {raw : JsValue}

theorem checkText_general (allowed : Option (List JsString)) (regex : Option (JsString → Bool))
    (format : Option ParamFormat) :
    checkText name (allowed.map (List.map EnumValue.text)) regex format raw =
      checkString name allowed regex format raw := by
  cases raw with
  | str s =>
    have hincluded (texts : List JsString) :
        (texts.map EnumValue.text).any (EnumValue.isText s) = texts.contains s := by
      rw [List.any_map, List.contains_eq_any_beq]
      congr 1
      funext t
      exact Bool.eq_iff_iff.mpr ⟨fun h => beq_iff_eq.mpr (of_decide_eq_true h).symm,
        fun h => decide_eq_true (beq_iff_eq.mp h).symm⟩
    have htexts (texts : List JsString) :
        (texts.map EnumValue.text).map EnumValue.toText = texts := by
      rw [List.map_map]
      exact List.map_id texts
    rw [checkText, checkString, checkEnum, checkRegex]
    cases allowed with
    | none =>
      cases regex with
      | none => rfl
      | some test => cases htest : test s <;> simp [htest, paramError, invalidParams] <;> rfl
    | some texts =>
      rw [Option.map_some, Option.any_some, Option.any_some, hincluded, Option.getD_some, htexts]
      cases texts.contains s with
      | false => rfl
      | true =>
        cases regex with
        | none => rfl
        | some test => cases htest : test s <;> simp [htest, paramError, invalidParams] <;> rfl
  | _ => rfl

theorem checkFinite_general (range : Option (ℕ × ℕ)) :
    checkFinite name (range.map fun r => (.ofNat r.1, .ofNat r.2)) none raw =
      checkNumber name range raw := by
  cases raw with
  | num x =>
    rw [checkFinite, checkNumber]
    cases x.isFinite with
    | false => rfl
    | true =>
      cases range with
      | none => rfl
      | some r =>
        rw [if_pos rfl, Option.map_some, checkRange]
        cases hrange : x.lt (.ofNat r.1) || (JsNumber.ofNat r.2).lt x with
        | false =>
          simp [hrange]
          rfl
        | true =>
          simp [hrange, paramError, invalidParams]
          rfl
  | _ => rfl

mutual
/-- On a schema of a backend the two checks are the same. -/
theorem ParamSchema.checkOne_general (schema : ParamSchema) (h : schema.ordinary = true)
    (name : JsString) (raw : JsValue) : schema.general.checkOne name raw = checkOne name raw schema := by
  cases schema with
  | string => rw [ParamSchema.general, AnySchema.checkOne, checkText_general, checkOne]
  | number => rw [ParamSchema.general, AnySchema.checkOne, checkFinite_general, checkOne]
  | boolean => rfl
  | array required fallback items =>
    have hitems := fun elems => ParamSchema.checkItems_general items h name elems
    rw [ParamSchema.general, AnySchema.checkOne, checkOne]
    simp only [hitems]
  | object required fallback additional properties =>
    rw [ParamSchema.ordinary, Bool.and_eq_true] at h
    have hentries := fun fields => ParamSchema.checkEntries_general additional h.1 name fields
    have hdeclared := fun fields => ParamSchema.checkDeclared_general properties h.2 name fields
    rw [ParamSchema.general, AnySchema.checkOne, checkOne]
    simp only [hentries]
    cases raw with
    | obj fields =>
      change givenOr name required fallback _ (checkAdditional name fields additional >>= fun _ =>
        AnySchema.checkDeclared name fields _) = _
      rw [hdeclared]
      rfl
    | _ => rfl

theorem ParamSchema.checkItems_general (items : Option ParamSchema)
    (h : ParamSchema.ordinaryItems items = true) (name : JsString) (elems : List JsValue) :
    AnySchema.checkItems name elems (ParamSchema.generalItems items) = checkElements name elems items := by
  cases items with
  | none => rfl
  | some items =>
    have hone := ParamSchema.checkOne_general items h
    cases items with
    | string required fallback allowed regex format =>
      have htext := fun n raw => @checkText_general n raw none regex none
      rw [ParamSchema.generalItems, ParamSchema.general, AnySchema.checkItems, checkElements]
      exact congrArg elems.zipIdx.forM (funext fun e => htext _ e.1)
    | object required fallback additional properties =>
      cases properties with
      | none =>
        exact congrArg elems.zipIdx.forM (funext fun e => congrArg (Except.map _) (hone _ e.1))
      | some properties =>
        rw [ParamSchema.ordinaryItems, ParamSchema.ordinary, Bool.and_eq_true] at h
        have hproperties := ParamSchema.checkProperties_general properties h.2
        rw [ParamSchema.generalItems, ParamSchema.general, ParamSchema.generalDeclared,
          AnySchema.checkItems, checkElements]
        congr 1
        funext e
        obtain ⟨raw, i⟩ := e
        cases raw with
        | obj fields => exact hproperties _ fields
        | _ => rfl
    | number =>
      exact congrArg elems.zipIdx.forM (funext fun e => congrArg (Except.map _) (hone _ e.1))
    | boolean => rfl
    | array =>
      exact congrArg elems.zipIdx.forM (funext fun e => congrArg (Except.map _) (hone _ e.1))

theorem ParamSchema.checkEntries_general (additional : Option ParamSchema)
    (h : ParamSchema.ordinaryItems additional = true) (name : JsString) (fields : Fields) :
    AnySchema.checkEntries name fields (ParamSchema.generalItems additional) =
      checkAdditional name fields additional := by
  cases additional with
  | none => rfl
  | some schema =>
    have hone := ParamSchema.checkOne_general schema h
    rw [ParamSchema.generalItems, AnySchema.checkEntries, checkAdditional]
    simp only [hone]

theorem ParamSchema.checkDeclared_general (properties : Option (List (JsString × ParamSchema)))
    (h : ParamSchema.ordinaryDeclared properties = true) (name : JsString) (fields : Fields) :
    AnySchema.checkDeclared name fields (ParamSchema.generalDeclared properties) =
      checkDeclared name (.obj fields) properties := by
  cases properties with
  | none => rfl
  | some properties => exact ParamSchema.checkProperties_general properties h name fields

theorem ParamSchema.checkProperties_general (properties : List (JsString × ParamSchema))
    (h : ParamSchema.ordinaryProperties properties = true) (name : JsString) (fields : Fields) :
    AnySchema.checkProperties name fields (ParamSchema.generalProperties properties) =
      checkProperties name (.obj fields) properties := by
  cases properties with
  | nil => rfl
  | cons property rest =>
    obtain ⟨key, schema⟩ := property
    rw [ParamSchema.ordinaryProperties, Bool.and_eq_true, Bool.and_eq_true] at h
    have hrest := ParamSchema.checkProperties_general rest h.2 name fields
    have hone := ParamSchema.checkOne_general schema h.1.2
    rw [ParamSchema.generalProperties, AnySchema.checkProperties, checkProperties, hone, hrest,
      readKey_ordinary h.1.1]
    rfl
end

theorem generalProperties_names (schema : List (JsString × ParamSchema)) :
    (ParamSchema.generalProperties schema).map Prod.fst = schema.map Prod.fst := by
  induction schema with
  | nil => rfl
  | cons f rest ih =>
    obtain ⟨name, schema⟩ := f
    rw [ParamSchema.generalProperties, List.map_cons, List.map_cons, ih]

/-- The schema of a backend, whose names are all different. -/
def SchemaMap.ofParams (schema : List (JsString × ParamSchema)) (h : (schema.map Prod.fst).Nodup) :
    SchemaMap where
  entries := ParamSchema.generalProperties schema
  nodup := by rwa [generalProperties_names]

/-- A name that is no array index is appended. -/
theorem keepChecked_append {checked : JsValue} {out : Fields}
    (hname : isUndefined (inherited name) = true) (hindex : arrayIndex name = none)
    (hnew : name ∉ out.map Prod.fst) : keepChecked name checked out = out ++ keepParam name checked [] := by
  have hproto : name ≠ js "__proto__" := by
    rintro rfl
    exact absurd hname (by decide)
  rw [keepChecked, keepParam]
  split_ifs
  · rw [List.append_nil]
  · apply setOwn_last
    intro f hf
    refine ⟨fun heq => hnew (heq ▸ List.mem_map_of_mem hf), ?_⟩
    rw [keyBefore, hindex]

theorem validateFrom_general (schema : List (JsString × ParamSchema)) (params : Fields)
    (hordinary : ParamSchema.ordinaryProperties schema = true)
    (hindex : ∀ f ∈ schema, arrayIndex f.1 = none) (hnodup : (schema.map Prod.fst).Nodup)
    {out : Fields} (hnew : ∀ f ∈ schema, f.1 ∉ out.map Prod.fst) :
    validateFrom params out (ParamSchema.generalProperties schema) =
      (validateParameters params schema).map (out ++ ·) := by
  induction schema generalizing out with
  | nil => exact congrArg Except.ok (List.append_nil out).symm
  | cons f rest ih =>
    obtain ⟨name, schema⟩ := f
    rw [ParamSchema.ordinaryProperties, Bool.and_eq_true, Bool.and_eq_true] at hordinary
    obtain ⟨⟨hname, hschema⟩, hrest⟩ := hordinary
    obtain ⟨hnameIndex, hrestIndex⟩ := List.forall_mem_cons.mp hindex
    obtain ⟨hnameNew, hrestNew⟩ := List.forall_mem_cons.mp hnew
    obtain ⟨hhead, htail⟩ := List.nodup_cons.mp hnodup
    rw [ParamSchema.generalProperties, validateFrom, validateParameters,
      ParamSchema.checkOne_general schema hschema, readKey_ordinary hname]
    cases checkOne name (getOwn name params) schema with
    | error e => rfl
    | ok checked =>
      have hkept : keepChecked name checked out = out ++ keepParam name checked [] :=
        keepChecked_append hname hnameIndex hnameNew
      -- the name that is kept is not declared again
      have hfree : ∀ f ∈ rest, f.1 ∉ (out ++ keepParam name checked []).map Prod.fst := by
        intro f hf hmem
        rw [List.map_append] at hmem
        rcases List.mem_append.mp hmem with hmem | hmem
        · exact hrestNew f hf hmem
        · rw [keepParam] at hmem
          split_ifs at hmem
          · exact List.not_mem_nil hmem
          · have hsame : f.1 = name := List.mem_singleton.mp hmem
            have hname : f.1 ∈ rest.map Prod.fst := List.mem_map_of_mem hf
            exact hhead (hsame ▸ hname)
      have hih := ih hrest hrestIndex htail hfree
      change validateFrom params (keepChecked name checked out) _ = _
      rw [hkept, hih]
      cases validateParameters params rest with
      | error e => rfl
      | ok kept =>
        apply congrArg Except.ok
        rw [keepParam, keepParam]
        split_ifs
        · exact congrArg (· ++ kept) (List.append_nil out)
        · exact List.append_cons out (name, checked) kept |>.symm

/-- The two models of `validateParameters` agree on the schemas of the backends. -/
theorem validate_general (schema : List (JsString × ParamSchema)) (params : Fields)
    (hordinary : ParamSchema.ordinaryProperties schema = true)
    (hindex : ∀ f ∈ schema, arrayIndex f.1 = none) (hnodup : (schema.map Prod.fst).Nodup) :
    (SchemaMap.ofParams schema hnodup).validate params = validateParameters params schema := by
  have hnew : ∀ f ∈ schema, f.1 ∉ ([] : Fields).map Prod.fst := fun _ _ => List.not_mem_nil
  have hfrom := validateFrom_general schema params hordinary hindex hnodup hnew
  refine hfrom.trans ?_
  cases validateParameters params schema <;> rfl

end Homelab
