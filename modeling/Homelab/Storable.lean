import Homelab.SignedPayload

/-! Values that a signed file can hold: the encoder accepts them, and what is read back
from the file has their canonical text. -/
namespace Homelab
open Js

namespace LiveValue

/-- The canonical encoder accepts the value. -/
def Signable (v : LiveValue) : Prop := ∃ t, v.encode = .ok t

/-- The value can be signed, and is accepted when it is read back. -/
structure Storable (v : LiveValue) : Prop where
  signable : v.Signable
  faithful : v.Faithful

/-! ### Objects and arrays -/

theorem exists_texts_iff {α : Type} (key : α → JsString) (enc : α → Except JsString JsString)
    (l : List α) : (∃ ms : List (JsString × JsString),
      l.map (fun a => (key a, enc a)) = ms.map (fun m => (m.1, .ok m.2))) ↔
        ∀ a ∈ l, ∃ t, enc a = .ok t := by
  induction l with
  | nil => exact ⟨fun _ _ ha => absurd ha List.not_mem_nil, fun _ => ⟨[], rfl⟩⟩
  | cons a l ih =>
    rw [List.forall_mem_cons, ← ih]
    constructor
    · intro h
      obtain ⟨ms, hms⟩ := h
      cases ms with
      | nil => cases hms
      | cons m ms =>
        obtain ⟨hm, hrest⟩ := List.cons.inj hms
        exact ⟨⟨m.2, (Prod.mk.inj hm).2⟩, ms, hrest⟩
    · intro h
      obtain ⟨⟨t, ht⟩, ms, hms⟩ := h
      refine ⟨(key a, t) :: ms, ?_⟩
      rw [List.map_cons, List.map_cons, hms, ht]

theorem signable_obj {fs : LiveFields} : (LiveValue.obj fs).Signable ↔ ∀ f ∈ fs, f.2.Signable := by
  rw [Signable]
  simp only [encode_obj_iff]
  refine Iff.trans ?_ (exists_texts_iff Prod.fst (fun f => f.2.encode) fs)
  constructor
  · intro h
    obtain ⟨_, ms, hms, _⟩ := h
    exact ⟨ms, hms⟩
  · intro h
    obtain ⟨ms, hms⟩ := h
    exact ⟨_, ms, hms, rfl⟩

theorem membersFaithful_iff (fs : LiveFields) : MembersFaithful fs ↔ ∀ f ∈ fs, f.2.Faithful := by
  induction fs with
  | nil => exact ⟨fun _ _ hf => absurd hf List.not_mem_nil, fun _ => trivial⟩
  | cons f fs ih =>
    rw [List.forall_mem_cons, ← ih]
    rfl

theorem storable_obj {fs : LiveFields} : (LiveValue.obj fs).Storable ↔ ∀ f ∈ fs, f.2.Storable := by
  constructor
  · intro h f hf
    exact ⟨signable_obj.mp h.signable f hf, (membersFaithful_iff fs).mp h.faithful f hf⟩
  · intro h
    exact ⟨signable_obj.mpr fun f hf => (h f hf).signable,
      (membersFaithful_iff fs).mpr fun f hf => (h f hf).faithful⟩

theorem encodeElems_some (vs : List LiveValue) :
    encodeElems (vs.map some) = vs.map LiveValue.encode := by
  induction vs with
  | nil => rfl
  | cons v vs ih => rw [List.map_cons, encodeElems, ih, List.map_cons]

theorem signable_arr {vs : List LiveValue} :
    (LiveValue.arr (vs.map some)).Signable ↔ ∀ v ∈ vs, v.Signable := by
  rw [Signable]
  simp only [encode_arr_iff, encodeElems_some]
  constructor
  · intro h v hv
    obtain ⟨_, parts, hparts, _⟩ := h
    have hmem : v.encode ∈ vs.map LiveValue.encode := List.mem_map_of_mem hv
    rw [hparts] at hmem
    obtain ⟨t, _, ht⟩ := List.mem_map.mp hmem
    exact ⟨t, ht.symm⟩
  · intro h
    obtain ⟨parts, hparts⟩ := mapM_ok LiveValue.encode vs h
    exact ⟨_, parts, (mapM_ok_iff _ _ _).mp hparts, rfl⟩

theorem elemsFaithful_iff (vs : List LiveValue) :
    ElemsFaithful (vs.map some) ↔ ∀ v ∈ vs, v.Faithful := by
  induction vs with
  | nil => exact ⟨fun _ _ hv => absurd hv List.not_mem_nil, fun _ => trivial⟩
  | cons v vs ih =>
    rw [List.forall_mem_cons, ← ih]
    rfl

theorem storable_arr {vs : List LiveValue} :
    (LiveValue.arr (vs.map some)).Storable ↔ ∀ v ∈ vs, v.Storable := by
  constructor
  · intro h v hv
    exact ⟨signable_arr.mp h.signable v hv, (elemsFaithful_iff vs).mp h.faithful v hv⟩
  · intro h
    exact ⟨signable_arr.mpr fun v hv => (h v hv).signable,
      (elemsFaithful_iff vs).mpr fun v hv => (h v hv).faithful⟩

theorem storable_prim (p : {v : JsValue // JsAtom v}) (hjson : p.val.isJson = true) :
    (LiveValue.prim p).Storable := ⟨encode_of_isJson p.val hjson, trivial⟩

theorem storable_str (s : JsString) : (LiveValue.str s).Storable := storable_prim _ rfl

theorem membersWellFormed_iff (fs : LiveFields) :
    membersWellFormed fs = true ↔ ∀ f ∈ fs, f.2.wellFormed = true := by
  induction fs with
  | nil => exact ⟨fun _ _ hf => absurd hf List.not_mem_nil, fun _ => rfl⟩
  | cons f fs ih =>
    rw [List.forall_mem_cons, ← ih, membersWellFormed, Bool.and_eq_true]

theorem wellFormed_obj {fs : LiveFields} : (LiveValue.obj fs).wellFormed = true ↔
    OwnOrder (fs.map Prod.fst) ∧ ∀ f ∈ fs, f.2.wellFormed = true := by
  rw [wellFormed, Bool.and_eq_true, decide_eq_true_iff, membersWellFormed_iff]

theorem wellFormed_arr {vs : List LiveValue} :
    (LiveValue.arr (vs.map some)).wellFormed = true ↔ ∀ v ∈ vs, v.wellFormed = true := by
  rw [wellFormed]
  induction vs with
  | nil => exact ⟨fun _ _ hv => absurd hv List.not_mem_nil, fun _ => rfl⟩
  | cons v vs ih =>
    rw [List.forall_mem_cons, ← ih, List.map_cons, elemsWellFormed, Bool.and_eq_true]

/-! ### Values that `JSON.parse` has made -/

mutual
/-- A value without exotic objects and holes. -/
def ofJs : JsValue → LiveValue
  | .arr es => .arr (ofJsAll es)
  | .obj fs => .obj (ofJsFields fs)
  | .undefined => .prim ⟨.undefined, trivial⟩
  | .null => .prim ⟨.null, trivial⟩
  | .bool b => .prim ⟨.bool b, trivial⟩
  | .num x => .prim ⟨.num x, trivial⟩
  | .str s => .prim ⟨.str s, trivial⟩
  | .bigint n => .prim ⟨.bigint n, trivial⟩
  | .function => .prim ⟨.function, trivial⟩
  | .symbol => .prim ⟨.symbol, trivial⟩

def ofJsAll : List JsValue → List (Option LiveValue)
  | [] => []
  | v :: vs => some (ofJs v) :: ofJsAll vs

def ofJsFields : List (JsString × JsValue) → List (JsString × LiveValue)
  | [] => []
  | (k, v) :: fs => (k, ofJs v) :: ofJsFields fs
end

theorem ofJsAll_eq (vs : List JsValue) : ofJsAll vs = (vs.map ofJs).map some := by
  induction vs with
  | nil => rfl
  | cons v vs ih => rw [ofJsAll, ih, List.map_cons, List.map_cons]

theorem ofJsFields_eq (fs : Fields) : ofJsFields fs = fs.map fun f => (f.1, ofJs f.2) := by
  induction fs with
  | nil => rfl
  | cons f fs ih => rw [ofJsFields, ih, List.map_cons]

mutual
theorem storable_ofJs : ∀ v : JsValue, v.isJson = true → (ofJs v).Storable
  | .null, _ => storable_prim _ rfl
  | .bool _, _ => storable_prim _ rfl
  | .num _, h => storable_prim _ h
  | .str _, _ => storable_prim _ rfl
  | .arr es, h => by
    rw [ofJs, ofJsAll_eq, storable_arr]
    exact storable_ofJsAll es h
  | .obj fs, h => by
    rw [JsValue.isJson, Bool.and_eq_true] at h
    rw [ofJs, ofJsFields_eq, storable_obj]
    exact storable_ofJsFields fs h.2

theorem storable_ofJsAll : ∀ vs : List JsValue, allJson vs = true →
    ∀ v ∈ vs.map ofJs, v.Storable
  | [], _, _, hv => absurd hv List.not_mem_nil
  | w :: ws, h, v, hv => by
    rw [allJson, Bool.and_eq_true] at h
    rcases List.mem_cons.mp hv with heq | hv
    · rw [heq]
      exact storable_ofJs w h.1
    · exact storable_ofJsAll ws h.2 v hv

theorem storable_ofJsFields : ∀ fs : List (JsString × JsValue), fieldsJson fs = true →
    ∀ f ∈ fs.map fun f => (f.1, ofJs f.2), f.2.Storable
  | [], _, _, hf => absurd hf List.not_mem_nil
  | (_, w) :: gs, h, f, hf => by
    rw [fieldsJson, Bool.and_eq_true] at h
    rcases List.mem_cons.mp hf with heq | hf
    · rw [heq]
      exact storable_ofJs w h.1
    · exact storable_ofJsFields gs h.2 f hf
end

mutual
theorem wellFormed_ofJs : ∀ v : JsValue, v.isJson = true → (ofJs v).wellFormed = true
  | .null, _ => rfl
  | .bool _, _ => rfl
  | .num _, _ => rfl
  | .str _, _ => rfl
  | .arr es, h => by
    rw [ofJs, ofJsAll_eq, wellFormed_arr]
    exact wellFormed_ofJsAll es h
  | .obj fs, h => by
    rw [JsValue.isJson, Bool.and_eq_true, decide_eq_true_iff] at h
    rw [ofJs, ofJsFields_eq, wellFormed_obj, List.map_map]
    exact ⟨h.1, wellFormed_ofJsFields fs h.2⟩

theorem wellFormed_ofJsAll : ∀ vs : List JsValue, allJson vs = true →
    ∀ v ∈ vs.map ofJs, v.wellFormed = true
  | [], _, _, hv => absurd hv List.not_mem_nil
  | w :: ws, h, v, hv => by
    rw [allJson, Bool.and_eq_true] at h
    rcases List.mem_cons.mp hv with heq | hv
    · rw [heq]
      exact wellFormed_ofJs w h.1
    · exact wellFormed_ofJsAll ws h.2 v hv

theorem wellFormed_ofJsFields : ∀ fs : List (JsString × JsValue), fieldsJson fs = true →
    ∀ f ∈ fs.map fun f => (f.1, ofJs f.2), f.2.wellFormed = true
  | [], _, _, hf => absurd hf List.not_mem_nil
  | (_, w) :: gs, h, f, hf => by
    rw [fieldsJson, Bool.and_eq_true] at h
    rcases List.mem_cons.mp hf with heq | hf
    · rw [heq]
      exact wellFormed_ofJs w h.1
    · exact wellFormed_ofJsFields gs h.2 f hf
end

mutual
theorem faithful_ofJs : ∀ v : JsValue, (ofJs v).Faithful
  | .arr es => faithful_ofJsAll es
  | .obj fs => faithful_ofJsFields fs
  | .undefined => trivial
  | .null => trivial
  | .bool _ => trivial
  | .num _ => trivial
  | .str _ => trivial
  | .bigint _ => trivial
  | .function => trivial
  | .symbol => trivial

theorem faithful_ofJsAll : ∀ vs : List JsValue, ElemsFaithful (ofJsAll vs)
  | [] => trivial
  | v :: vs => ⟨faithful_ofJs v, faithful_ofJsAll vs⟩

theorem faithful_ofJsFields : ∀ fs : List (JsString × JsValue), MembersFaithful (ofJsFields fs)
  | [] => trivial
  | (_, v) :: fs => ⟨faithful_ofJs v, faithful_ofJsFields fs⟩
end

mutual
/-- Such a value has the same canonical text in memory. -/
theorem encode_ofJs : ∀ v : JsValue, (ofJs v).encode = Homelab.encode v
  | .arr es => by rw [ofJs, encode, Homelab.encode, encodeElems_ofJs es]
  | .obj fs => by rw [ofJs, encode, Homelab.encode, encodeMembers_ofJs fs]
  | .undefined => rfl
  | .null => rfl
  | .bool _ => rfl
  | .num _ => rfl
  | .str _ => rfl
  | .bigint _ => rfl
  | .function => rfl
  | .symbol => rfl

theorem encodeElems_ofJs : ∀ vs : List JsValue, encodeElems (ofJsAll vs) = encodeAll vs
  | [] => rfl
  | v :: vs => by rw [ofJsAll, encodeElems, encodeAll, encode_ofJs v, encodeElems_ofJs vs]

theorem encodeMembers_ofJs : ∀ fs : List (JsString × JsValue),
    encodeMembers (ofJsFields fs) = encodeFields fs
  | [] => rfl
  | (_, v) :: fs => by
    have hundefined : (ofJs v).isUndefined = Homelab.isUndefined v := by
      cases v <;> rfl
    rw [ofJsFields, encodeMembers, encodeFields, encode_ofJs v, encodeMembers_ofJs fs, hundefined]
    rfl
end

/-- The objects in the value list their keys in order. -/
def WellOrdered (v : JsValue) : Prop := (ofJs v).wellFormed = true

instance : DecidablePred WellOrdered := fun v =>
  inferInstanceAs (Decidable ((ofJs v).wellFormed = true))

theorem wellOrdered_obj {fs : Fields} : WellOrdered (.obj fs) ↔
    OwnOrder (fs.map Prod.fst) ∧ ∀ f ∈ fs, WellOrdered f.2 := by
  rw [WellOrdered, ofJs, ofJsFields_eq, wellFormed_obj, List.map_map, List.forall_mem_map]
  rfl

theorem wellOrdered_getOwn {fs : Fields} (h : ∀ f ∈ fs, WellOrdered f.2) (k : JsString) :
    WellOrdered (getOwn k fs) := by
  induction fs with
  | nil => rfl
  | cons f fs ih =>
    obtain ⟨hf, hfs⟩ := List.forall_mem_cons.mp h
    obtain ⟨k', v⟩ := f
    rw [getOwn]
    split_ifs
    · exact hf
    · exact ih hfs

theorem wellOrdered_orElse {v w : JsValue} (hv : WellOrdered v) (hw : WellOrdered w) :
    WellOrdered (v.orElse w) := by
  cases v <;> first | exact hw | exact hv

/-! ### Reading fields back -/

theorem getOwn_not_mem {k : JsString} {fs : Fields} (h : k ∉ fs.map Prod.fst) :
    getOwn k fs = .undefined := by
  induction fs with
  | nil => rfl
  | cons f fs ih =>
    obtain ⟨k', v⟩ := f
    rw [List.map_cons, List.mem_cons, not_or] at h
    rw [getOwn, if_neg (Ne.symm h.1), ih h.2]

/-- A field can be read back under its key. -/
theorem getOwn_written {fs : LiveFields} {gs : Fields} {k : JsString} {v : LiveValue}
    (h : writtenMembers fs = .ok gs) (hkeys : (fs.map Prod.fst).Nodup) (hmem : (k, v) ∈ fs) :
    ∃ r, v.written = .ok r ∧ getOwn k gs = r.getD .undefined := by
  induction fs generalizing gs with
  | nil => exact absurd hmem List.not_mem_nil
  | cons f fs ih =>
    obtain ⟨k', v'⟩ := f
    obtain ⟨hfresh, hkeys⟩ := List.nodup_cons.mp hkeys
    obtain ⟨r, hs, hr, hhs, rfl⟩ := writtenMembers_cons_iff.mp h
    rcases List.mem_cons.mp hmem with heq | hmem
    · obtain ⟨rfl, rfl⟩ := Prod.mk.inj heq
      refine ⟨r, hr, ?_⟩
      cases r with
      | none => exact getOwn_not_mem fun hk => hfresh ((writtenMembers_keys hhs).subset hk)
      | some j => exact if_pos rfl
    · obtain ⟨r', hr', hread⟩ := ih hhs hkeys hmem
      refine ⟨r', hr', ?_⟩
      have hne : k' ≠ k := by
        rintro rfl
        exact hfresh (List.mem_map.mpr ⟨(k', v), hmem, rfl⟩)
      cases r with
      | none => exact hread
      | some j => exact (if_neg hne).trans hread

end LiveValue

/-- What the file holds that a signed object was written to. -/
theorem reread_object {host : HmacHost} {fs : LiveFields} {signed : Signed} {raw : JsValue}
    (hwf : (LiveValue.obj fs).wellFormed = true) (hsign : signPayload host (.obj fs) = .ok signed)
    (hreread : reread signed = .ok (some raw)) :
    ∃ gs, (LiveValue.obj fs).written = .ok (some (.obj gs)) ∧
      raw = .obj (posZeroFields (envelopeFields (some (.obj gs)) signed.hmac)) := by
  obtain ⟨text, key, _, _, rfl⟩ := signPayload_iff.mp hsign
  cases hwritten : (LiveValue.obj fs).written with
  | error message =>
    rw [reread, LiveValue.stringify, written_live_error hwritten] at hreread
    cases hreread
  | ok r =>
    obtain ⟨gs, _, rfl⟩ := LiveValue.written_obj_iff.mp hwritten
    rw [reread_eq hwf hwritten] at hreread
    exact ⟨gs, rfl, (Option.some.inj (Except.ok.inj hreread)).symm⟩

/-- A field of a written object, as it is read from the payload of its file. -/
theorem property_written {fs : LiveFields} {gs : Fields} {k : JsString} {v : LiveValue}
    (hwf : (LiveValue.obj fs).wellFormed = true)
    (h : (LiveValue.obj fs).written = .ok (some (.obj gs))) (hmem : (k, v) ∈ fs) :
    ∃ r, v.written = .ok r ∧ property k (JsValue.obj gs).posZero = (r.getD .undefined).posZero := by
  obtain ⟨gs', hgs, heq⟩ := LiveValue.written_obj_iff.mp h
  obtain rfl := JsValue.obj.inj (Option.some.inj heq)
  have hkeys : (fs.map Prod.fst).Nodup := (LiveValue.wellFormed_obj.mp hwf).1.imp And.left
  obtain ⟨r, hr, hread⟩ := LiveValue.getOwn_written hgs hkeys hmem
  refine ⟨r, hr, ?_⟩
  change getOwn k (posZeroFields gs) = _
  rw [getOwn_posZeroFields, hread]

theorem property_text {fs : LiveFields} {gs : Fields} {k t : JsString}
    (hwf : (LiveValue.obj fs).wellFormed = true)
    (h : (LiveValue.obj fs).written = .ok (some (.obj gs))) (hmem : (k, .str t) ∈ fs) :
    property k (JsValue.obj gs).posZero = .str t := by
  obtain ⟨r, hr, hread⟩ := property_written hwf h hmem
  cases hr
  exact hread

/-- A value of a running program. -/
abbrev ProperValue := {v : LiveValue // v.wellFormed = true}

/-! ### Records -/

/-- A property that is there when it has a value. -/
def optField (k : JsString) (v : Option LiveValue) : LiveFields := (v.map fun v => (k, v)).toList

theorem forall_optField {P : LiveValue → Prop} {k : JsString} {v : Option LiveValue} :
    (∀ f ∈ optField k v, P f.2) ↔ ∀ w, v = some w → P w := by
  cases v with
  | none => exact ⟨fun _ _ h => (by cases h), fun _ _ h => absurd h List.not_mem_nil⟩
  | some w =>
    constructor
    · intro h u hu
      obtain rfl := Option.some.inj hu
      exact h _ (List.mem_cons_self ..)
    · intro h f hf
      rw [List.mem_singleton.mp hf]
      exact h w rfl

theorem forall_optValue {P : LiveValue → Prop} {k : JsString} {v : Option ProperValue} :
    (∀ f ∈ optField k (v.map Subtype.val), P f.2) ↔ ∀ w, v = some w → P w.val := by
  rw [forall_optField]
  cases v with
  | none => exact ⟨fun _ _ h => (by cases h), fun _ _ h => (by cases h)⟩
  | some w => simp only [Option.map_some, Option.some.injEq, forall_eq']

theorem storable_text (s : Option JsString) : ∀ w, s.map LiveValue.str = some w → w.Storable := by
  intro w hw
  obtain ⟨t, _, rfl⟩ := Option.map_eq_some_iff.mp hw
  exact LiveValue.storable_str t

theorem storable_num {x : JsNumber} : (LiveValue.num x).Storable ↔ x.isFinite = true := by
  constructor
  · intro h
    obtain ⟨t, ht⟩ := h.signable
    obtain ⟨d, rfl, _⟩ := encode_num ht
    rfl
  · intro h
    exact LiveValue.storable_prim ⟨.num x, trivial⟩ h

theorem optField_keys (k : JsString) (v : Option LiveValue) :
    ((optField k v).map Prod.fst).Sublist [k] := by
  cases v with
  | none => exact List.nil_sublist _
  | some w => exact List.Sublist.refl _

theorem wellFormed_optField {k : JsString} {v : Option LiveValue}
    (h : ∀ w, v = some w → w.wellFormed = true) : ∀ f ∈ optField k v, f.2.wellFormed = true :=
  (forall_optField (P := fun w => w.wellFormed = true)).mpr h

theorem wellFormed_optValue {k : JsString} {v : Option ProperValue} :
    ∀ f ∈ optField k (v.map Subtype.val), f.2.wellFormed = true :=
  (forall_optValue (P := fun w => w.wellFormed = true)).mpr fun w _ => w.property

def isString : JsValue → Bool
  | .str _ => true
  | _ => false

def isNumber : JsValue → Bool
  | .num _ => true
  | _ => false

def isArray : JsValue → Bool
  | .arr _ => true
  | _ => false

/-! ### `persist-record.ts` -/

/-- What `persistSignedRecord` leaves in the file, or what it throws. -/
def persistSignedRecord (host : HmacHost) (payload : ProperValue) :
    Except JsString (Option JsValue) := do
  let signed ← signPayload host payload.val
  reread signed

/-- `readSignedRecord` from the value that the file holds, if there is one. -/
def readSignedRecord (host : HmacHost) (filePath : JsString) (file : Option JsValue) :
    Except JsString (Option JsValue) :=
  match file with
  | none => .ok none
  | some raw =>
    if verifyPayload host raw then .ok (some (property (js "payload") raw))
    else .error (js "signed record at " ++ filePath ++ js " failed HMAC verification")

end Homelab
