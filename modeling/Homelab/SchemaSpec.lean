import Homelab.JsRecord
import Homelab.ParamSchemas
import Homelab.LiveValue

/-! What it is for a value to satisfy a schema, with the defaults of the schema in it, and what the
checks of the code leave open of that. -/
namespace Homelab
open Js

/-! ### Values that satisfy a schema -/

def OfEnum (enum : Option (List EnumValue)) (included : EnumValue → Bool) : Prop :=
  ∀ values ∈ enum, values.any included = true

def OfFormat (format : Option ParamFormat) (s : JsString) : Prop := ∀ f ∈ format, f.regex s = true

structure TextOk (enum : Option (List EnumValue)) (regex : Option (JsString → Bool))
    (format : Option ParamFormat) (s : JsString) : Prop where
  enum : OfEnum enum (EnumValue.isText s)
  regex : ∀ test ∈ regex, test s = true
  format : OfFormat format s

structure NumberOk (range : Option (JsNumber × JsNumber)) (enum : Option (List EnumValue))
    (x : JsNumber) : Prop where
  finite : x.isFinite = true
  range : ∀ r ∈ range, x.lt r.1 = false ∧ r.2.lt x = false
  enum : OfEnum enum (EnumValue.isNumber x)

def declaredNames (properties : Option (List (JsString × AnySchema))) : List JsString :=
  (properties.getD []).map Prod.fst

/-- A member that is left out must not be required; one that is there satisfies its schema. -/
def MemberOk (required : Bool) (member : JsValue) (satisfied : JsValue → Prop) : Prop :=
  (member = .undefined ∧ required = false) ∨ satisfied member

mutual
/-- The value satisfies the schema, at every depth; `null` satisfies none. -/
def AnySchema.Sat : AnySchema → JsValue → Prop
  | .string _ _ enum regex format, v => ∃ s, v = .str s ∧ TextOk enum regex format s
  | .number _ _ range enum, v => ∃ x, v = .num x ∧ NumberOk range enum x
  | .boolean _ _, v => ∃ b, v = .bool b
  | .array _ _ items, v => ∃ elems, v = .arr elems ∧ AnySchema.SatItems elems items
  | .object _ _ additional properties, v => ∃ fields, v = .obj fields ∧
    AnySchema.SatOthers (declaredNames properties) fields additional ∧
    AnySchema.SatDeclared fields properties

def AnySchema.SatItems (elems : List JsValue) : Option AnySchema → Prop
  | none => True
  | some items => ∀ e ∈ elems, items.Sat e

/-- The members that are not declared. -/
def AnySchema.SatOthers (declared : List JsString) (fields : Fields) : Option AnySchema → Prop
  | none => True
  | some schema => ∀ k ∈ fields.map Prod.fst, k ∉ declared →
    MemberOk schema.required (getOwn k fields) schema.Sat

def AnySchema.SatDeclared (fields : Fields) : Option (List (JsString × AnySchema)) → Prop
  | none => True
  | some properties => AnySchema.SatProperties fields properties

def AnySchema.SatProperties (fields : Fields) : List (JsString × AnySchema) → Prop
  | [] => True
  | (key, schema) :: rest => MemberOk schema.required (getOwn key fields) schema.Sat ∧
    AnySchema.SatProperties fields rest
end

/-! ### Defaults -/

/-- Two arrays whose elements are related; what is no array has not changed. -/
def OverElems (related : List JsValue → List JsValue → Prop) (raw out : JsValue) : Prop :=
  match raw, out with
  | .arr es, .arr os => related es os
  | _, _ => out = raw

/-- Two objects whose fields are related; what is no object has not changed. -/
def OverFields (related : Fields → Fields → Prop) (raw out : JsValue) : Prop :=
  match raw, out with
  | .obj fs, .obj gs => related fs gs
  | _, _ => out = raw

mutual
/-- `out` is `raw` with the default of every value that is missing, at every depth. -/
def AnySchema.Filled : AnySchema → JsValue → JsValue → Prop
  | .string _ fallback _ _ _, raw, out => out = raw.orElse fallback
  | .number _ fallback _ _, raw, out => out = raw.orElse fallback
  | .boolean _ fallback, raw, out => out = raw.orElse fallback
  | .array _ fallback items, raw, out =>
    if isNullish raw then out = fallback else AnySchema.FilledItems raw out items
  | .object _ fallback additional properties, raw, out =>
    if isNullish raw then out = fallback
    else OverFields (fun fs gs => AnySchema.FilledOthers (declaredNames properties) fs gs additional ∧
      AnySchema.FilledDeclared fs gs properties) raw out

def AnySchema.FilledItems (raw out : JsValue) : Option AnySchema → Prop
  | none => out = raw
  | some items => OverElems (List.Forall₂ fun e o => items.Filled e o) raw out

def AnySchema.FilledOthers (declared : List JsString) (fs gs : Fields) : Option AnySchema → Prop
  | none => ∀ k ∉ declared, getOwn k gs = getOwn k fs
  | some schema => ∀ k ∉ declared,
    (k ∈ fs.map Prod.fst → schema.Filled (getOwn k fs) (getOwn k gs)) ∧
    (k ∉ fs.map Prod.fst → getOwn k gs = .undefined)

def AnySchema.FilledDeclared (fs gs : Fields) : Option (List (JsString × AnySchema)) → Prop
  | none => True
  | some properties => AnySchema.FilledProperties fs gs properties

def AnySchema.FilledProperties (fs gs : Fields) : List (JsString × AnySchema) → Prop
  | [] => True
  | (key, schema) :: rest => schema.Filled (getOwn key fs) (getOwn key gs) ∧
    AnySchema.FilledProperties fs gs rest
end

/-! ### What the code does not look at -/

/-- A member of an object whose value is kept as it is: it is not `null`, and when it is left out
there is no default for it and it is not required. -/
def KeptMember (required : Bool) (fallback : JsValue) (left : JsValue → Prop) : JsValue → Prop
  | .undefined => fallback = .undefined ∧ required = false
  | .null => False
  | member => left member

mutual
/-- All is well at the places of the value that the code does not look at. -/
def AnySchema.Left : AnySchema → JsValue → Prop
  | .array _ _ items, .arr elems => AnySchema.LeftItems elems items
  | .object _ _ additional properties, .obj fields =>
    AnySchema.LeftOthers (declaredNames properties) fields additional ∧
    AnySchema.LeftDeclared fields properties
  | _, _ => True

/-- In an array: the `enum` and the format of a text, all but the properties of an object, and
elements that are missing. -/
def AnySchema.LeftItems (elems : List JsValue) : Option AnySchema → Prop
  | none => True
  | some (.string _ _ enum _ format) => ∀ s, .str s ∈ elems →
    OfEnum enum (EnumValue.isText s) ∧ OfFormat format s
  | some (.object _ _ additional (some properties)) => ∀ fields, .obj fields ∈ elems →
    (AnySchema.SatOthers (properties.map Prod.fst) fields additional ∧
      AnySchema.FilledOthers (properties.map Prod.fst) fields fields additional) ∧
    AnySchema.LeftProperties fields properties
  | some items => ∀ e ∈ elems, isNullish e = false ∧ items.Left e

def AnySchema.LeftOthers (declared : List JsString) (fields : Fields) : Option AnySchema → Prop
  | none => True
  | some schema => ∀ k ∈ fields.map Prod.fst, k ∉ declared →
    KeptMember schema.required schema.fallback schema.Left (getOwn k fields)

def AnySchema.LeftDeclared (fields : Fields) : Option (List (JsString × AnySchema)) → Prop
  | none => True
  | some properties => AnySchema.LeftProperties fields properties

def AnySchema.LeftProperties (fields : Fields) : List (JsString × AnySchema) → Prop
  | [] => True
  | (key, schema) :: rest =>
    KeptMember schema.required schema.fallback schema.Left (getOwn key fields) ∧
    AnySchema.LeftProperties fields rest
end

/-! ### What the checks of one value say -/

variable {name : JsString} {enum : Option (List EnumValue)} {regex : Option (JsString → Bool)}
  {format : Option ParamFormat} {range : Option (JsNumber × JsNumber)} {raw v : JsValue}

theorem checkEnum_ok {included : EnumValue → Bool} :
    checkEnum name enum included = .ok () ↔ OfEnum enum included := by
  rw [checkEnum, OfEnum]
  cases enum with
  | none => simp
  | some values =>
    have hsome : (∀ vs ∈ some values, vs.any included = true) ↔ values.any included = true :=
      ⟨fun h => h values rfl, fun h vs hvs => Option.mem_some_iff.mp hvs ▸ h⟩
    rw [hsome, Option.any_some]
    cases values.any included with
    | true => simp
    | false => simp [paramError, invalidParams]

theorem checkRegex_ok {s : JsString} :
    checkRegex name regex s = .ok () ↔ ∀ test ∈ regex, test s = true := by
  rw [checkRegex]
  cases regex with
  | none => simp
  | some test =>
    cases htest : test s with
    | true => simp [htest]
    | false => simp [htest, paramError, invalidParams]

theorem checkRange_ok {x : JsNumber} :
    checkRange name range x = .ok () ↔ ∀ r ∈ range, x.lt r.1 = false ∧ r.2.lt x = false := by
  cases range with
  | none => simp [checkRange]
  | some r =>
    obtain ⟨min, max⟩ := r
    rw [checkRange]
    cases hmin : x.lt min <;> cases hmax : max.lt x <;>
      simp [hmin, hmax, paramError, invalidParams]

theorem checkFormat_ok {s : JsString} :
    format.elim (.ok ()) (checkFormat name s) = .ok () ↔ OfFormat format s := by
  cases format with
  | none => simp [OfFormat]
  | some f =>
    rw [Option.elim_some, checkFormat, OfFormat]
    cases hf : f.regex s <;> simp [hf, paramError, invalidParams]

theorem checkText_ok :
    checkText name enum regex format v = .ok () ↔ ∃ s, v = .str s ∧ TextOk enum regex format s := by
  constructor
  · intro h
    cases v with
    | str s =>
      obtain ⟨_, henum, h⟩ := LiveValue.bind_ok_iff.mp h
      obtain ⟨_, hregex, hformat⟩ := LiveValue.bind_ok_iff.mp h
      exact ⟨s, rfl, checkEnum_ok.mp henum, checkRegex_ok.mp hregex, checkFormat_ok.mp hformat⟩
    | _ => cases h
  · rintro ⟨s, rfl, hok⟩
    exact LiveValue.bind_ok_iff.mpr ⟨(), checkEnum_ok.mpr hok.enum, LiveValue.bind_ok_iff.mpr
      ⟨(), checkRegex_ok.mpr hok.regex, checkFormat_ok.mpr hok.format⟩⟩

theorem checkFinite_ok :
    checkFinite name range enum v = .ok () ↔ ∃ x, v = .num x ∧ NumberOk range enum x := by
  constructor
  · intro h
    cases v with
    | num x =>
      rw [checkFinite] at h
      split_ifs at h with hfinite
      · obtain ⟨_, hrange, henum⟩ := LiveValue.bind_ok_iff.mp h
        exact ⟨x, rfl, hfinite, checkRange_ok.mp hrange, checkEnum_ok.mp henum⟩
      · cases h
    | _ => cases h
  · rintro ⟨x, rfl, hok⟩
    rw [checkFinite, if_pos hok.finite]
    exact LiveValue.bind_ok_iff.mpr ⟨(), checkRange_ok.mpr hok.range, checkEnum_ok.mpr hok.enum⟩

theorem checkBoolean_ok : checkBoolean name v = .ok () ↔ ∃ b, v = .bool b := by
  cases v <;> simp [checkBoolean, paramError, invalidParams]

/-- A value that is given is kept when it passes its check. -/
theorem givenOr_given {required : Bool} {fallback : JsValue} {check : Except DeployError Unit}
    (hraw : isNullish raw = false) :
    givenOr name required fallback raw check = .ok v ↔ check = .ok () ∧ v = raw := by
  rw [givenOr, hraw, if_neg Bool.false_ne_true]
  cases check with
  | error e => exact ⟨fun h => (by cases h), fun h => (by cases h.1)⟩
  | ok u =>
    constructor
    · intro h
      exact ⟨rfl, (Except.ok.inj h).symm⟩
    · rintro ⟨-, rfl⟩
      rfl

theorem givenOr_missing {required : Bool} {fallback : JsValue} {check : Except DeployError Unit}
    (hraw : isNullish raw = true) (h : givenOr name required fallback raw check = .ok v) :
    v = fallback ∧ (fallback = .undefined → required = false) := by
  rw [givenOr, if_pos hraw] at h
  split_ifs at h with hrequired
  · cases h
  · refine ⟨(Except.ok.inj h).symm, ?_⟩
    rintro rfl
    cases required with
    | false => rfl
    | true => exact absurd rfl hrequired

/-! ### Values that the code keeps as they are -/

theorem isNullish_cases {w : JsValue} (h : isNullish w = true) : w = .undefined ∨ w = .null := by
  cases w with
  | undefined => exact Or.inl rfl
  | null => exact Or.inr rfl
  | _ => cases h

theorem AnySchema.sat_given {schema : AnySchema} (h : schema.Sat v) : isNullish v = false := by
  cases schema with
  | string =>
    obtain ⟨s, rfl, -⟩ := h
    rfl
  | number =>
    obtain ⟨x, rfl, -⟩ := h
    rfl
  | boolean =>
    obtain ⟨b, rfl⟩ := h
    rfl
  | array =>
    obtain ⟨elems, rfl, -⟩ := h
    rfl
  | object =>
    obtain ⟨fields, rfl, -⟩ := h
    rfl

/-- In place of a value that is missing stands the default. -/
theorem AnySchema.filled_missing {schema : AnySchema} {out : JsValue} (hraw : isNullish raw = true) :
    schema.Filled raw out ↔ out = schema.fallback := by
  have horElse (fallback : JsValue) : raw.orElse fallback = fallback := by
    rcases isNullish_cases hraw with rfl | rfl <;> rfl
  cases schema with
  | string => rw [AnySchema.Filled, horElse, AnySchema.fallback]
  | number => rw [AnySchema.Filled, horElse, AnySchema.fallback]
  | boolean => rw [AnySchema.Filled, horElse, AnySchema.fallback]
  | array => rw [AnySchema.Filled, if_pos hraw, AnySchema.fallback]
  | object => rw [AnySchema.Filled, if_pos hraw, AnySchema.fallback]

/-- No value that is given becomes `undefined`. -/
theorem AnySchema.not_filled_undefined {schema : AnySchema} (hraw : isNullish raw = false) :
    ¬ schema.Filled raw .undefined := by
  have hne : JsValue.undefined ≠ raw := by
    rintro rfl
    cases hraw
  have horElse (fallback : JsValue) : raw.orElse fallback = raw := by
    cases raw <;> first | rfl | cases hraw
  intro h
  cases schema with
  | string => exact hne (h.trans (horElse _))
  | number => exact hne (h.trans (horElse _))
  | boolean => exact hne (h.trans (horElse _))
  | array required fallback items =>
    rw [AnySchema.Filled, hraw, if_neg Bool.false_ne_true] at h
    cases items with
    | none => exact hne h
    | some items =>
      rw [AnySchema.FilledItems] at h
      cases raw <;> exact hne h
  | object required fallback additional properties =>
    rw [AnySchema.Filled, hraw, if_neg Bool.false_ne_true] at h
    cases raw <;> exact hne h

/-- A value that is given is an own one. -/
theorem readKey_given {k : JsString} {fields : Fields} (h : isNullish (getOwn k fields) = false) :
    readKey fields k = getOwn k fields := by
  rw [readKey, if_pos]
  by_contra hk
  rw [getOwn_of_not_mem hk] at h
  cases h

theorem getOwn_mem_fields {k : JsString} {fields : Fields} (hk : k ∈ fields.map Prod.fst) :
    (k, getOwn k fields) ∈ fields := by
  induction fields with
  | nil => exact absurd hk List.not_mem_nil
  | cons f fields ih =>
    obtain ⟨key, value⟩ := f
    rw [getOwn]
    split_ifs with hkey
    · rw [hkey]
      exact List.mem_cons_self ..
    · rcases List.mem_cons.mp hk with hk | hk
      · exact absurd hk.symm hkey
      · exact List.mem_cons_of_mem _ (ih hk)

/-- What a member has to be, split into what the schema asks and what its default does. -/
theorem keptMember_iff {schema : AnySchema} {w : JsValue}
    (hgiven : isNullish w = false → ((schema.Sat w ∧ schema.Filled w w) ↔ schema.Left w)) :
    (MemberOk schema.required w schema.Sat ∧ schema.Filled w w) ↔
      KeptMember schema.required schema.fallback schema.Left w := by
  cases hw : isNullish w with
  | true =>
    have hsat : ¬ schema.Sat w := fun h => by
      rw [AnySchema.sat_given h] at hw
      cases hw
    rw [AnySchema.filled_missing hw, MemberOk]
    -- left out, or `null`, which no schema admits and no default replaces
    rcases isNullish_cases hw with rfl | rfl
    · constructor
      · rintro ⟨⟨-, hrequired⟩ | hcontra, hfallback⟩
        · exact ⟨hfallback.symm, hrequired⟩
        · exact absurd hcontra hsat
      · rintro ⟨hfallback, hrequired⟩
        exact ⟨Or.inl ⟨rfl, hrequired⟩, hfallback.symm⟩
    · constructor
      · rintro ⟨⟨hcontra, -⟩ | hcontra, -⟩
        · cases hcontra
        · exact absurd hcontra hsat
      · exact False.elim
  | false =>
    have hne : w ≠ .undefined := by
      rintro rfl
      cases hw
    have hmember : MemberOk schema.required w schema.Sat ↔ schema.Sat w := by
      rw [MemberOk, or_iff_right]
      exact fun h => hne h.1
    have hkept : KeptMember schema.required schema.fallback schema.Left w = schema.Left w := by
      cases w <;> first | rfl | cases hw
    rw [hmember, hkept]
    exact hgiven hw

/-- A check of all elements has checked each. -/
theorem forM_zipIdx_ok {ε α : Type} {f : α × ℕ → Except ε Unit} {l : List α}
    (h : l.zipIdx.forM f = .ok ()) : ∀ a ∈ l, ∃ i, f (a, i) = .ok () := by
  intro a ha
  obtain ⟨i, hi⟩ := List.mem_iff_getElem?.mp ha
  exact ⟨i, forM_ok h (a, i) (List.mk_mem_zipIdx_iff_getElem?.mpr hi)⟩

theorem filledElems_iff {items : AnySchema} {elems : List JsValue} :
    AnySchema.FilledItems (.arr elems) (.arr elems) (some items) ↔ ∀ e ∈ elems, items.Filled e e :=
  List.forall₂_same

/-- In an array whose items are no texts and have no properties, each element is checked whole. -/
theorem elements_iff {items : AnySchema} {elems : List JsValue}
    (hchecked : ∀ e ∈ elems, isNullish e = false →
      ((items.Sat e ∧ items.Filled e e) ↔ items.Left e)) :
    ((∀ e ∈ elems, items.Sat e) ∧ ∀ e ∈ elems, items.Filled e e) ↔
      ∀ e ∈ elems, isNullish e = false ∧ items.Left e := by
  constructor
  · rintro ⟨hsat, hfilled⟩ e he
    have hgiven := AnySchema.sat_given (hsat e he)
    exact ⟨hgiven, (hchecked e he hgiven).mp ⟨hsat e he, hfilled e he⟩⟩
  · intro h
    have hboth (e : JsValue) (he : e ∈ elems) : items.Sat e ∧ items.Filled e e :=
      (hchecked e he (h e he).1).mpr (h e he).2
    exact ⟨fun e he => (hboth e he).1, fun e he => (hboth e he).2⟩

/-- In an array of texts, the type and the regular expression are checked. -/
theorem texts_iff {elems : List JsValue} {required : Bool} {fallback : JsValue}
    (hchecked : ∀ e ∈ elems, ∃ s, e = .str s ∧ TextOk none regex none s) :
    ((∀ e ∈ elems, (AnySchema.string required fallback enum regex format).Sat e) ∧
      ∀ e ∈ elems, (AnySchema.string required fallback enum regex format).Filled e e) ↔
      ∀ s, .str s ∈ elems → OfEnum enum (EnumValue.isText s) ∧ OfFormat format s := by
  constructor
  · rintro ⟨hsat, -⟩ s hs
    obtain ⟨s', hs', hok⟩ := hsat _ hs
    obtain rfl := JsValue.str.inj hs'
    exact ⟨hok.enum, hok.format⟩
  · intro h
    constructor
    · intro e he
      obtain ⟨s, rfl, hok⟩ := hchecked e he
      exact ⟨s, rfl, (h s he).1, hok.regex, (h s he).2⟩
    · intro e he
      obtain ⟨s, rfl, -⟩ := hchecked e he
      rfl

/-- In an array of objects, the properties are checked. -/
theorem objects_iff {elems : List JsValue} {required : Bool} {fallback : JsValue}
    {additional : Option AnySchema} {properties : List (JsString × AnySchema)}
    (hchecked : ∀ e ∈ elems, ∃ fields, e = .obj fields ∧
      ((AnySchema.SatProperties fields properties ∧ AnySchema.FilledProperties fields fields properties) ↔
        AnySchema.LeftProperties fields properties)) :
    ((∀ e ∈ elems, (AnySchema.object required fallback additional (some properties)).Sat e) ∧
      ∀ e ∈ elems, (AnySchema.object required fallback additional (some properties)).Filled e e) ↔
      ∀ fields, .obj fields ∈ elems →
        (AnySchema.SatOthers (properties.map Prod.fst) fields additional ∧
          AnySchema.FilledOthers (properties.map Prod.fst) fields fields additional) ∧
        AnySchema.LeftProperties fields properties := by
  constructor
  · rintro ⟨hsat, hfilled⟩ fields hfields
    obtain ⟨fields', heq, hothers, hproperties⟩ := hsat _ hfields
    obtain rfl := JsValue.obj.inj heq
    obtain ⟨hothersFilled, hpropertiesFilled⟩ := hfilled _ hfields
    obtain ⟨fields', heq, hiff⟩ := hchecked _ hfields
    obtain rfl := JsValue.obj.inj heq
    exact ⟨⟨hothers, hothersFilled⟩, hiff.mp ⟨hproperties, hpropertiesFilled⟩⟩
  · intro h
    have hboth (e : JsValue) (he : e ∈ elems) :
        (AnySchema.object required fallback additional (some properties)).Sat e ∧
        (AnySchema.object required fallback additional (some properties)).Filled e e := by
      obtain ⟨fields, rfl, hiff⟩ := hchecked e he
      obtain ⟨⟨hothers, hothersFilled⟩, hleft⟩ := h fields he
      obtain ⟨hproperties, hpropertiesFilled⟩ := hiff.mpr hleft
      exact ⟨⟨fields, rfl, hothers, hproperties⟩, hothersFilled, hpropertiesFilled⟩
    exact ⟨fun e he => (hboth e he).1, fun e he => (hboth e he).2⟩

/-- The elements that `checkOne` has looked at. -/
theorem elements_checked {items : AnySchema} {elems : List JsValue}
    (h : elems.zipIdx.forM (fun e =>
      (items.checkOne (elementName name e.2) e.1).map fun _ => ()) = .ok ()) :
    ∀ e ∈ elems, ∃ n v, items.checkOne n e = .ok v := by
  intro e he
  obtain ⟨i, hi⟩ := forM_zipIdx_ok h e he
  obtain ⟨v, hv, -⟩ := map_ok_iff.mp hi
  exact ⟨_, v, hv⟩

/-- The members of an object that are not declared, each checked against a schema. -/
theorem others_iff {schema : AnySchema} {declared : List JsString} {fields : Fields}
    (hchecked : ∀ f ∈ fields, isNullish f.2 = false →
      ((schema.Sat f.2 ∧ schema.Filled f.2 f.2) ↔ schema.Left f.2)) :
    (AnySchema.SatOthers declared fields (some schema) ∧
      AnySchema.FilledOthers declared fields fields (some schema)) ↔
      AnySchema.LeftOthers declared fields (some schema) := by
  have hmember (k : JsString) (hk : k ∈ fields.map Prod.fst) :
      (MemberOk schema.required (getOwn k fields) schema.Sat ∧
        schema.Filled (getOwn k fields) (getOwn k fields)) ↔
      KeptMember schema.required schema.fallback schema.Left (getOwn k fields) :=
    keptMember_iff (hchecked (k, getOwn k fields) (getOwn_mem_fields hk))
  constructor
  · rintro ⟨hsat, hfilled⟩ k hk hnot
    exact (hmember k hk).mp ⟨hsat k hk hnot, (hfilled k hnot).1 hk⟩
  · intro h
    constructor
    · intro k hk hnot
      exact ((hmember k hk).mpr (h k hk hnot)).1
    · intro k hnot
      exact ⟨fun hk => ((hmember k hk).mpr (h k hk hnot)).2, fun hk => getOwn_of_not_mem hk⟩

mutual
/-- A value that the code accepts, and keeps as it is, satisfies its schema with all defaults in
it exactly when all is well where the code does not look. -/
theorem AnySchema.left_iff (schema : AnySchema) {name : JsString} {raw v : JsValue}
    (hraw : isNullish raw = false) (h : schema.checkOne name raw = .ok v) :
    (schema.Sat raw ∧ schema.Filled raw raw) ↔ schema.Left raw := by
  -- induction on the schema; of a single value all is checked
  cases schema with
  | string required fallback enum regex format =>
    obtain ⟨s, rfl, hok⟩ := checkText_ok.mp ((givenOr_given hraw).mp h).1
    exact ⟨fun _ => trivial, fun _ => ⟨⟨s, rfl, hok⟩, rfl⟩⟩
  | number required fallback range enum =>
    obtain ⟨x, rfl, hok⟩ := checkFinite_ok.mp ((givenOr_given hraw).mp h).1
    exact ⟨fun _ => trivial, fun _ => ⟨⟨x, rfl, hok⟩, rfl⟩⟩
  | boolean required fallback =>
    obtain ⟨b, rfl⟩ := checkBoolean_ok.mp ((givenOr_given hraw).mp h).1
    exact ⟨fun _ => trivial, fun _ => ⟨⟨b, rfl⟩, rfl⟩⟩
  | array required fallback items =>
    obtain ⟨elems, helems, hitems⟩ := LiveValue.bind_ok_iff.mp ((givenOr_given hraw).mp h).1
    cases raw with
    | arr es =>
      obtain rfl := Except.ok.inj helems
      rw [AnySchema.Left, ← AnySchema.leftItems_iff items hitems]
      constructor
      · rintro ⟨⟨es', heq, hsat⟩, hfilled⟩
        obtain rfl := JsValue.arr.inj heq
        exact ⟨hsat, hfilled⟩
      · rintro ⟨hsat, hfilled⟩
        exact ⟨⟨es, rfl, hsat⟩, hfilled⟩
    | _ => cases helems
  | object required fallback additional properties =>
    obtain ⟨fields, hfields, hrest⟩ := LiveValue.bind_ok_iff.mp ((givenOr_given hraw).mp h).1
    obtain ⟨_, hentries, hdeclared⟩ := LiveValue.bind_ok_iff.mp hrest
    cases raw with
    | obj fs =>
      obtain rfl := Except.ok.inj hfields
      rw [AnySchema.Left, ← AnySchema.leftOthers_iff additional hentries,
        ← AnySchema.leftDeclared_iff properties hdeclared]
      constructor
      · rintro ⟨⟨fs', heq, hothers, hproperties⟩, hothersFilled, hpropertiesFilled⟩
        obtain rfl := JsValue.obj.inj heq
        exact ⟨⟨hothers, hothersFilled⟩, hproperties, hpropertiesFilled⟩
      · rintro ⟨⟨hothers, hothersFilled⟩, hproperties, hpropertiesFilled⟩
        exact ⟨⟨fs, rfl, hothers, hproperties⟩, hothersFilled, hpropertiesFilled⟩
    | _ => cases hfields

theorem AnySchema.leftItems_iff (items : Option AnySchema) {name : JsString} {elems : List JsValue}
    (h : AnySchema.checkItems name elems items = .ok ()) :
    (AnySchema.SatItems elems items ∧ AnySchema.FilledItems (.arr elems) (.arr elems) items) ↔
      AnySchema.LeftItems elems items := by
  cases items with
  | none => exact ⟨fun _ => trivial, fun _ => ⟨trivial, rfl⟩⟩
  | some items =>
    rw [AnySchema.SatItems, filledElems_iff]
    have hwhole (hchecked : ∀ e ∈ elems, ∃ n v, items.checkOne n e = .ok v) :
        ((∀ e ∈ elems, items.Sat e) ∧ ∀ e ∈ elems, items.Filled e e) ↔
          ∀ e ∈ elems, isNullish e = false ∧ items.Left e := by
      apply elements_iff
      intro e he hgiven
      obtain ⟨n, v, hv⟩ := hchecked e he
      exact AnySchema.left_iff items hgiven hv
    -- the three ways of the loop over the elements
    cases items with
    | string required fallback enum regex format =>
      apply texts_iff
      intro e he
      obtain ⟨i, hi⟩ := forM_zipIdx_ok h e he
      exact checkText_ok.mp hi
    | object required fallback additional properties =>
      cases properties with
      | none => exact hwhole (elements_checked h)
      | some properties =>
        apply objects_iff
        intro e he
        obtain ⟨i, hi⟩ := forM_zipIdx_ok h e he
        obtain ⟨fields, hfields, hproperties⟩ := LiveValue.bind_ok_iff.mp hi
        cases e with
        | obj fs =>
          obtain rfl := Except.ok.inj hfields
          exact ⟨fs, rfl, AnySchema.leftProperties_iff properties hproperties⟩
        | _ => cases hfields
    | number => exact hwhole (elements_checked h)
    | boolean => exact hwhole (elements_checked h)
    | array => exact hwhole (elements_checked h)

theorem AnySchema.leftOthers_iff (additional : Option AnySchema) {name : JsString}
    {declared : List JsString} {fields : Fields}
    (h : AnySchema.checkEntries name fields additional = .ok ()) :
    (AnySchema.SatOthers declared fields additional ∧
      AnySchema.FilledOthers declared fields fields additional) ↔
      AnySchema.LeftOthers declared fields additional := by
  cases additional with
  | none => exact ⟨fun _ => trivial, fun _ => ⟨trivial, fun _ _ => rfl⟩⟩
  | some schema =>
    apply others_iff
    intro f hf hgiven
    obtain ⟨v, hv, -⟩ := map_ok_iff.mp (forM_ok h f hf)
    exact AnySchema.left_iff schema hgiven hv

theorem AnySchema.leftDeclared_iff (properties : Option (List (JsString × AnySchema))) {name : JsString}
    {fields : Fields} (h : AnySchema.checkDeclared name fields properties = .ok ()) :
    (AnySchema.SatDeclared fields properties ∧ AnySchema.FilledDeclared fields fields properties) ↔
      AnySchema.LeftDeclared fields properties := by
  cases properties with
  | none => exact ⟨fun _ => trivial, fun _ => ⟨trivial, trivial⟩⟩
  | some properties => exact AnySchema.leftProperties_iff properties h

theorem AnySchema.leftProperties_iff (properties : List (JsString × AnySchema)) {name : JsString}
    {fields : Fields} (h : AnySchema.checkProperties name fields properties = .ok ()) :
    (AnySchema.SatProperties fields properties ∧ AnySchema.FilledProperties fields fields properties) ↔
      AnySchema.LeftProperties fields properties := by
  cases properties with
  | nil => exact ⟨fun _ => trivial, fun _ => ⟨trivial, trivial⟩⟩
  | cons property rest =>
    obtain ⟨key, schema⟩ := property
    -- a member that is given is an own one, and has been checked; of others the condition speaks itself
    obtain ⟨checked, hchecked, hrest⟩ := LiveValue.bind_ok_iff.mp h
    have hmember : (MemberOk schema.required (getOwn key fields) schema.Sat ∧
        schema.Filled (getOwn key fields) (getOwn key fields)) ↔
        KeptMember schema.required schema.fallback schema.Left (getOwn key fields) := by
      apply keptMember_iff
      intro hgiven
      rw [readKey_given hgiven] at hchecked
      exact AnySchema.left_iff schema hgiven hchecked
    rw [AnySchema.LeftProperties, ← hmember, ← AnySchema.leftProperties_iff rest hrest,
      AnySchema.SatProperties, AnySchema.FilledProperties]
    exact and_and_and_comm
end

end Homelab
