import Homelab.CanonicalJson
import Homelab.Cidr
import Homelab.JsCoerce

/-! The parameters of a deploy: `validateParameters` over a schema, and what makes a target a
stateful one. -/
namespace Homelab
open Js

/-! ### Errors -/

inductive DeployErrorCode
  | invalidParams | buildFailed | deployFailed | healthFailed | rollbackFailed | imagePullFailed
  | credentialInvalid
deriving DecidableEq

structure DeployError where
  code : DeployErrorCode
  message : JsString
  retriable : Bool
  details : Fields

/-- An error with its code and its message alone. -/
def DeployError.plain (code : DeployErrorCode) (message : JsString) : DeployError :=
  ⟨code, message, false, []⟩

def invalidParams {α : Type} (message : JsString) : Except DeployError α :=
  .error (.plain .invalidParams message)

/-- `param '<name>' <complaint>` -/
def paramError {α : Type} (name complaint : JsString) : Except DeployError α :=
  invalidParams (js "param '" ++ name ++ js "' " ++ complaint)

/-! ### Formats -/

def isLetter (c : CodeUnit) : Bool :=
  (0x41 ≤ c.toNat && c.toNat ≤ 0x5A) || (0x61 ≤ c.toNat && c.toNat ≤ 0x7A)

def isAlphanumeric (c : CodeUnit) : Bool := isLetter c || isDigitUnit c

/-- `^[<units>]{<low>,<high>}$` -/
def unitsOf (allowed : CodeUnit → Bool) (low high : ℕ) (s : JsString) : Bool :=
  low ≤ s.length && s.length ≤ high && s.all allowed

/-- `IDENT_REGEX` -/
def identRegex : JsString → Bool := unitsOf (fun c => isAlphanumeric c || c ∈ js "_.-") 1 128

/-- `SHELL_SAFE_ARG_REGEX` -/
def shellSafeArgRegex : JsString → Bool :=
  unitsOf (fun c => isAlphanumeric c || c ∈ js "_./@:+=,-") 1 512

/-- `URL_REGEX` -/
def urlRegex (s : JsString) : Bool :=
  let rest := unitsOf (fun c => !isWhiteSpace c) 1 2048
  (js "http://").isPrefixOf s && rest (s.drop 7) || (js "https://").isPrefixOf s && rest (s.drop 8)

/-- `PATH_REGEX` -/
def pathRegex : JsString → Bool := unitsOf (fun c => isAlphanumeric c || c ∈ js "_./-") 1 1024

/-- `ABS_PATH_REGEX` -/
def absPathRegex (s : JsString) : Bool :=
  s.head? == some 0x2F && unitsOf (fun c => isAlphanumeric c || c ∈ js "_./-") 0 1024 s.tail

inductive ParamFormat
  | identifier | shellSafeArg | url | path | absolutePath
deriving DecidableEq

def ParamFormat.regex : ParamFormat → JsString → Bool
  | .identifier => identRegex
  | .shellSafeArg => shellSafeArgRegex
  | .url => urlRegex
  | .path => pathRegex
  | .absolutePath => absPathRegex

def ParamFormat.complaint : ParamFormat → JsString
  | .identifier => js "must match identifier pattern"
  | .shellSafeArg => js "contains shell-unsafe characters"
  | .url => js "must be an http(s) URL"
  | .path => js "must be a relative or absolute path"
  | .absolutePath => js "must be an absolute path"

def checkFormat (name value : JsString) (format : ParamFormat) : Except DeployError Unit :=
  if format.regex value then .ok () else paramError name format.complaint

/-! ### Schemas -/

/-- A schema, by its `type`; a default that is not given is `undefined`, and a regular
expression is its test. -/
inductive ParamSchema
  | string (required : Bool) (fallback : JsValue) (allowed : Option (List JsString))
      (regex : Option (JsString → Bool)) (format : Option ParamFormat)
  | number (required : Bool) (fallback : JsValue) (range : Option (ℕ × ℕ))
  | boolean (required : Bool) (fallback : JsValue)
  | array (required : Bool) (fallback : JsValue) (items : Option ParamSchema)
  | object (required : Bool) (fallback : JsValue) (additionalProperties : Option ParamSchema)
      (properties : Option (List (JsString × ParamSchema)))

/-- A text that must be given, of this format. -/
def requiredText (format : ParamFormat) : ParamSchema := .string true .undefined none none (some format)

/-- A text of this format that may be left out. -/
def optionalText (format : Option ParamFormat) : ParamSchema :=
  .string false .undefined none none format

/-- A number with its default and its range. -/
def numberIn (fallback low high : ℕ) : ParamSchema :=
  .number false (.num (.ofNat fallback)) (some (low, high))

def isNullish : JsValue → Bool
  | .undefined => true
  | .null => true
  | _ => false

/-- What `checkOne` does first: a value that is missing is its default. -/
def givenOr (name : JsString) (required : Bool) (fallback raw : JsValue)
    (check : Except DeployError Unit) : Except DeployError JsValue :=
  if isNullish raw then
    if required && isUndefined fallback then
      invalidParams (js "required param '" ++ name ++ js "' is missing")
    else .ok fallback
  else check.map fun _ => raw

def checkString (name : JsString) (allowed : Option (List JsString))
    (regex : Option (JsString → Bool)) (format : Option ParamFormat) :
    JsValue → Except DeployError Unit
  | .str s =>
    if allowed.any fun texts => !texts.contains s then
      paramError name (js "must be one of [" ++ joinComma (allowed.getD []) ++ js "]")
    else if regex.any fun test => !test s then paramError name (js "does not match required regex")
    else format.elim (.ok ()) (checkFormat name s)
  | _ => paramError name (js "must be a string")

def checkNumber (name : JsString) (range : Option (ℕ × ℕ)) : JsValue → Except DeployError Unit
  | .num x =>
    if !x.isFinite then paramError name (js "must be a finite number")
    else if range.any fun r => x.lt (.ofNat r.1) || (JsNumber.ofNat r.2).lt x then
      let r := range.getD (0, 0)
      paramError name (js "must be in [" ++ (JsNumber.ofNat r.1).toText ++ js "," ++
        (JsNumber.ofNat r.2).toText ++ js "]")
    else .ok ()
  | _ => paramError name (js "must be a finite number")

def checkBoolean (name : JsString) : JsValue → Except DeployError Unit
  | .bool _ => .ok ()
  | _ => paramError name (js "must be a boolean")

def arrayElements (name : JsString) : JsValue → Except DeployError (List JsValue)
  | .arr elems => .ok elems
  | _ => paramError name (js "must be an array")

def objectFields (name : JsString) : JsValue → Except DeployError Fields
  | .obj fields => .ok fields
  | _ => paramError name (js "must be an object")

/-- `<name>[<i>]` -/
def elementName (name : JsString) (i : ℕ) : JsString :=
  name ++ js "[" ++ (JsNumber.ofNat i).toText ++ js "]"

/-- `<name>.<key>` -/
def memberName (name key : JsString) : JsString := name ++ js "." ++ key

mutual
/-- `checkOne` -/
def checkOne (name : JsString) (raw : JsValue) : ParamSchema → Except DeployError JsValue
  | .string required fallback allowed regex format =>
    givenOr name required fallback raw (checkString name allowed regex format raw)
  | .number required fallback range =>
    givenOr name required fallback raw (checkNumber name range raw)
  | .boolean required fallback => givenOr name required fallback raw (checkBoolean name raw)
  | .array required fallback items =>
    givenOr name required fallback raw do
      let elems ← arrayElements name raw
      checkElements name elems items
  | .object required fallback additional properties =>
    givenOr name required fallback raw do
      let fields ← objectFields name raw
      checkAdditional name fields additional
      checkDeclared name raw properties

/-- The elements of an array. One whose schema is a text is only tested for its type and its
regular expression. -/
def checkElements (name : JsString) (elems : List JsValue) :
    Option ParamSchema → Except DeployError Unit
  | none => .ok ()
  | some (.string _ _ _ regex _) => elems.zipIdx.forM fun e =>
    checkString (elementName name e.2) none regex none e.1
  | some (.object _ _ _ (some properties)) => elems.zipIdx.forM fun e => do
    let _ ← objectFields (elementName name e.2) e.1
    checkProperties (elementName name e.2) e.1 properties
  | some items => elems.zipIdx.forM fun e =>
    (checkOne (elementName name e.2) e.1 items).map fun _ => ()

def checkAdditional (name : JsString) (fields : Fields) :
    Option ParamSchema → Except DeployError Unit
  | none => .ok ()
  | some schema => fields.forM fun f => (checkOne (memberName name f.1) f.2 schema).map fun _ => ()

def checkDeclared (name : JsString) (raw : JsValue) :
    Option (List (JsString × ParamSchema)) → Except DeployError Unit
  | none => .ok ()
  | some properties => checkProperties name raw properties

def checkProperties (name : JsString) (raw : JsValue) :
    List (JsString × ParamSchema) → Except DeployError Unit
  | [] => .ok ()
  | (key, schema) :: rest => do
    let _ ← checkOne (memberName name key) (property key raw) schema
    checkProperties name raw rest
end

/-- A parameter that is not `undefined` is kept. -/
def keepParam (name : JsString) (value : JsValue) (out : Fields) : Fields :=
  if isUndefined value then out else (name, value) :: out

/-- `validateParameters`; the names of a schema are no array indices, so that what is kept
stands in the order of the schema. -/
def validateParameters (params : Fields) : List (JsString × ParamSchema) → Except DeployError Fields
  | [] => .ok []
  | (name, schema) :: rest => do
    let checked ← checkOne name (getOwn name params) schema
    let out ← validateParameters params rest
    return keepParam name checked out

theorem getOwn_keepParam {name k : JsString} (hne : name ≠ k) (value : JsValue) (out : Fields) :
    getOwn k (keepParam name value out) = getOwn k out := by
  rw [keepParam]
  split_ifs
  · rfl
  · rw [getOwn, if_neg hne]

/-- One step of the first pass over the schema. -/
theorem validateParameters_cons {params out : Fields} {name : JsString} {schema : ParamSchema}
    {rest : List (JsString × ParamSchema)} :
    validateParameters params ((name, schema) :: rest) = .ok out ↔
      ∃ checked kept, checkOne name (getOwn name params) schema = .ok checked ∧
        validateParameters params rest = .ok kept ∧ out = keepParam name checked kept := by
  rw [validateParameters]
  cases checkOne name (getOwn name params) schema with
  | error e => exact ⟨fun h => (by cases h), fun ⟨_, _, h, _⟩ => (by cases h)⟩
  | ok checked =>
    cases validateParameters params rest with
    | error e => exact ⟨fun h => (by cases h), fun ⟨_, _, _, h, _⟩ => (by cases h)⟩
    | ok kept =>
      constructor
      · intro h
        exact ⟨checked, kept, rfl, rfl, (Except.ok.inj h).symm⟩
      · rintro ⟨_, _, hchecked, hkept, rfl⟩
        obtain rfl := Except.ok.inj hchecked
        obtain rfl := Except.ok.inj hkept
        rfl

/-- Nothing is kept that the schema does not name. -/
theorem getOwn_validateParameters {params out : Fields} {schema : List (JsString × ParamSchema)}
    {k : JsString} (h : validateParameters params schema = .ok out)
    (hk : k ∉ schema.map Prod.fst) : getOwn k out = .undefined := by
  induction schema generalizing out with
  | nil =>
    obtain rfl := Except.ok.inj h
    rfl
  | cons f rest ih =>
    obtain ⟨name, schema⟩ := f
    obtain ⟨checked, kept, _, hrest, rfl⟩ := validateParameters_cons.mp h
    have hne : name ≠ k := fun heq => hk (heq ▸ List.mem_cons_self ..)
    rw [getOwn_keepParam hne]
    exact ih hrest fun hmem => hk (List.mem_cons_of_mem _ hmem)

/-- What is kept of a parameter is what its schema makes of it. -/
theorem getOwn_validated {params out : Fields} {schema : List (JsString × ParamSchema)}
    {k : JsString} {own : ParamSchema} (h : validateParameters params schema = .ok out)
    (hnodup : (schema.map Prod.fst).Nodup) (hk : (k, own) ∈ schema) :
    checkOne k (getOwn k params) own = .ok (getOwn k out) := by
  induction schema generalizing out with
  | nil => exact absurd hk List.not_mem_nil
  | cons f rest ih =>
    obtain ⟨name, schema⟩ := f
    obtain ⟨hhead, htail⟩ := List.nodup_cons.mp hnodup
    obtain ⟨checked, kept, hchecked, hrest, rfl⟩ := validateParameters_cons.mp h
    rcases List.mem_cons.mp hk with heq | hk
    · obtain ⟨rfl, rfl⟩ := Prod.mk.inj heq
      have hkept := getOwn_validateParameters hrest hhead
      rw [hchecked, keepParam]
      split_ifs with hundefined
      · cases checked with
        | undefined => rw [hkept]
        | _ => cases hundefined
      · rw [getOwn, if_pos rfl]
    · have hne : name ≠ k := by
        rintro rfl
        exact hhead (List.mem_map.mpr ⟨_, hk, rfl⟩)
      rw [getOwn_keepParam hne]
      exact ih hrest htail hk

theorem forM_ok {ε α : Type} {f : α → Except ε Unit} {l : List α} (h : l.forM f = .ok ()) :
    ∀ a ∈ l, f a = .ok () := by
  induction l with
  | nil => exact fun a ha => absurd ha List.not_mem_nil
  | cons b l ih =>
    change (f b >>= fun _ => l.forM f) = .ok () at h
    cases hb : f b with
    | error e =>
      rw [hb] at h
      cases h
    | ok u =>
      rw [hb] at h
      exact List.forall_mem_cons.mpr ⟨hb, ih h⟩

/-- A required text is there, and is kept as it is. -/
theorem checkOne_requiredText {name : JsString} {raw v : JsValue} {format : ParamFormat}
    (h : checkOne name raw (requiredText format) = .ok v) :
    ∃ s, raw = .str s ∧ v = .str s ∧ format.regex s = true := by
  rw [requiredText, checkOne, givenOr] at h
  cases raw with
  | str s =>
    change (checkFormat name s format).map (fun _ => JsValue.str s) = .ok v at h
    rw [checkFormat] at h
    split_ifs at h with hregex
    · exact ⟨s, rfl, (Except.ok.inj h).symm, hregex⟩
    · cases h
  | undefined => cases h
  | null => cases h
  | _ => cases h

/-- A text that must be given is one, whatever else is checked of it. -/
theorem checkOne_string {name : JsString} {raw v : JsValue} {allowed : Option (List JsString)}
    {regex : Option (JsString → Bool)} {format : Option ParamFormat}
    (h : checkOne name raw (.string true .undefined allowed regex format) = .ok v) :
    ∃ s, v = .str s := by
  rw [checkOne, givenOr] at h
  cases raw with
  | str s =>
    obtain ⟨_, hv⟩ : ∃ u, v = (fun _ => JsValue.str s) u := by
      cases hcheck : checkString name allowed regex format (.str s) with
      | error e =>
        rw [hcheck] at h
        cases h
      | ok u =>
        rw [hcheck] at h
        exact ⟨u, (Except.ok.inj h).symm⟩
    exact ⟨s, hv⟩
  | undefined => cases h
  | null => cases h
  | _ => cases h

/-- A number that must be given is one. -/
theorem checkOne_number {name : JsString} {raw v : JsValue} {range : Option (ℕ × ℕ)}
    (h : checkOne name raw (.number true .undefined range) = .ok v) : ∃ x, v = .num x := by
  rw [checkOne, givenOr] at h
  cases raw with
  | num x =>
    obtain ⟨_, hv⟩ : ∃ u, v = (fun _ => JsValue.num x) u := by
      cases hcheck : checkNumber name range (.num x) with
      | error e =>
        rw [hcheck] at h
        cases h
      | ok u =>
        rw [hcheck] at h
        exact ⟨u, (Except.ok.inj h).symm⟩
    exact ⟨x, hv⟩
  | undefined => cases h
  | null => cases h
  | _ => cases h

/-- The default of a schema. -/
def ParamSchema.fallback : ParamSchema → JsValue
  | .string _ fallback _ _ _ => fallback
  | .number _ fallback _ => fallback
  | .boolean _ fallback => fallback
  | .array _ fallback _ => fallback
  | .object _ fallback _ _ => fallback

theorem givenOr_ok {name : JsString} {required : Bool} {fallback raw v : JsValue}
    {check : Except DeployError Unit} (h : givenOr name required fallback raw check = .ok v) :
    v = raw ∨ v = fallback := by
  rw [givenOr] at h
  split_ifs at h with hmissing hrequired
  · cases h
  · exact Or.inr (Except.ok.inj h).symm
  · cases check with
    | error e => cases h
    | ok u => exact Or.inl (Except.ok.inj h).symm

/-- What is checked is the value itself or the default. -/
theorem checkOne_ok {name : JsString} {raw v : JsValue} {schema : ParamSchema}
    (h : checkOne name raw schema = .ok v) : v = raw ∨ v = schema.fallback := by
  cases schema <;> rw [checkOne] at h <;> exact givenOr_ok h

/-- What all given values and all defaults satisfy, and `undefined`, holds of what is kept. -/
theorem validateParameters_forall {P : JsValue → Prop} {params out : Fields}
    {schema : List (JsString × ParamSchema)} (h : validateParameters params schema = .ok out)
    (hundefined : P .undefined) (hgiven : ∀ k, P (getOwn k params))
    (hfallback : ∀ f ∈ schema, P f.2.fallback) (k : JsString) : P (getOwn k out) := by
  induction schema generalizing out with
  | nil =>
    obtain rfl := Except.ok.inj h
    exact hundefined
  | cons f rest ih =>
    obtain ⟨name, schema⟩ := f
    obtain ⟨checked, kept, hchecked, hrest, rfl⟩ := validateParameters_cons.mp h
    obtain ⟨hhead, htail⟩ := List.forall_mem_cons.mp hfallback
    have hkept := ih hrest htail
    rw [keepParam]
    split_ifs
    · exact hkept
    · rw [getOwn]
      split_ifs
      · rcases checkOne_ok hchecked with rfl | rfl
        · exact hgiven name
        · exact hhead
      · exact hkept

/-! ### Stateful targets -/

/-- `STATEFUL_ROLES` -/
def statefulRoles : List JsString := [js "database", js "cache"]

def hasHostPath (mount : JsValue) : Bool :=
  match property (js "host_path") mount with
  | .str s => trim s ≠ []
  | _ => false

/-- `isStatefulTarget`; its storage mounts are objects. -/
def isStatefulTarget (spec : Fields) : Bool :=
  let hasRole := match getOwn (js "role") spec with
    | .str role => role ≠ [] && role ∈ statefulRoles
    | _ => false
  let hasVolumes := match getOwn (js "named_volumes") spec with
    | .arr volumes => volumes.length > 0
    | _ => false
  let hasMount := match getOwn (js "storage_mounts") spec with
    | .arr mounts => mounts.any hasHostPath
    | _ => false
  hasRole || hasVolumes || hasMount

/-- `StatefulDeployConfig` -/
structure StatefulDeployConfig where
  requireBackup : Bool
  backupFreshnessOverrides : Option Fields

end Homelab
