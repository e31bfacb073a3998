import Homelab.JsonShape
import Homelab.LiveValue

/-! The canonical text stands for a normal form: values have one text when they differ in nothing but the
order of keys and the sign of zero, and what is read back from the text is such a value. -/
namespace Homelab
open Js
open scoped List

mutual
/-- The values are equal but for the order of keys, at every level, and the sign of zero. -/
def SameJson : JsValue → JsValue → Prop
  | .arr es, .arr es' => SameElems es es'
  | .obj fs, .obj gs => (fs.map Prod.fst).Perm (gs.map Prod.fst) ∧ SameFields fs gs
  | .num x, .num y => (JsValue.num x).posZero = (JsValue.num y).posZero
  | v, w => v = w

def SameElems : List JsValue → List JsValue → Prop
  | [], [] => True
  | v :: vs, w :: ws => SameJson v w ∧ SameElems vs ws
  | _, _ => False

/-- The first fields have the same values in the second object. -/
def SameFields : Fields → Fields → Prop
  | [], _ => True
  | (k, v) :: fs, gs => SameJson v (getOwn k gs) ∧ SameFields fs gs
end

theorem sameFields_iff {fs gs : Fields} : SameFields fs gs ↔ ∀ f ∈ fs, SameJson f.2 (getOwn f.1 gs) := by
  induction fs with
  | nil => simp [SameFields]
  | cons f fs ih => rw [SameFields, ih, List.forall_mem_cons]

/-! ### Objects with the same fields -/

theorem keys_nodup {keys : List JsString} (h : OwnOrder keys) : keys.Nodup := h.imp fun hab => hab.1

/-- Objects with one set of keys and equal properties list the same fields. -/
theorem perm_of_getOwn {fs gs : Fields} (hfs : (fs.map Prod.fst).Nodup) (hgs : (gs.map Prod.fst).Nodup)
    (hkeys : (fs.map Prod.fst).Perm (gs.map Prod.fst))
    (hvalues : ∀ k ∈ fs.map Prod.fst, getOwn k fs = getOwn k gs) : fs.Perm gs := by
  have hmem {l : Fields} (hl : (l.map Prod.fst).Nodup) (f : JsString × JsValue) :
      f ∈ l ↔ f.1 ∈ l.map Prod.fst ∧ getOwn f.1 l = f.2 := by
    constructor
    · exact fun h => ⟨List.mem_map_of_mem h, getOwn_of_mem hl h⟩
    · rintro ⟨hkey, hvalue⟩
      obtain ⟨g, hg, hgf⟩ := List.mem_map.mp hkey
      have hfound : getOwn g.1 l = g.2 := getOwn_of_mem hl hg
      rw [hgf, hvalue] at hfound
      have hsame : f = g := Prod.ext hgf.symm hfound
      rw [hsame]
      exact hg
  rw [List.perm_ext_iff_of_nodup hfs.of_map hgs.of_map]
  intro f
  rw [hmem hfs, hmem hgs, ← hkeys.mem_iff]
  exact and_congr_right fun hk => by rw [hvalues f.1 hk]

theorem canonFields_keys (fs : Fields) : (canonFields fs).map Prod.fst = fs.map Prod.fst := by
  rw [canonFields_eq, List.map_map]
  rfl

theorem sortKeys_nodup {fs : Fields} (h : (fs.map Prod.fst).Nodup) : ((sortKeys fs).map Prod.fst).Nodup :=
  ((List.mergeSort_perm fs _).map Prod.fst).nodup_iff.mpr h

theorem sortKeys_sorted (fs : Fields) : ((sortKeys fs).map Prod.fst).Pairwise (· ≤ ·) := by
  rw [List.pairwise_map]
  refine (List.pairwise_mergeSort ?_ ?_ fs).imp fun h => of_decide_eq_true h
  · intro a b c hab hbc
    exact decide_eq_true (List.le_trans (of_decide_eq_true hab) (of_decide_eq_true hbc))
  · intro a b
    rcases List.le_total a.1 b.1 with hle | hle
    · rw [decide_eq_true hle, Bool.true_or]
    · rw [decide_eq_true hle, Bool.or_true]

/-- Sorting undoes any other order. -/
theorem sortKeys_perm_eq {fs gs : Fields} (h : (gs.map Prod.fst).Nodup) (hperm : fs.Perm gs) :
    sortKeys fs = sortKeys gs :=
  sortKeys_eq_of_perm (hperm.trans (List.mergeSort_perm gs _).symm) (sortKeys_sorted gs) (sortKeys_nodup h)

theorem sortKeys_inj {fs gs : Fields} (h : sortKeys fs = sortKeys gs) : fs.Perm gs := by
  have hfs : (sortKeys fs).Perm fs := List.mergeSort_perm fs _
  have hgs : (sortKeys gs).Perm gs := List.mergeSort_perm gs _
  rw [h] at hfs
  exact hfs.symm.trans hgs

/-- A property that is there is a JSON value. -/
theorem getOwn_isJson_of_mem {fs : Fields} {k : JsString} (h : fieldsJson fs = true)
    (hk : k ∈ fs.map Prod.fst) : (getOwn k fs).isJson = true := by
  induction fs with
  | nil => cases hk
  | cons f fs ih =>
    obtain ⟨hv, hfs⟩ := Bool.and_eq_true_iff.mp h
    rw [getOwn]
    split_ifs with heq
    · exact hv
    · rcases List.mem_cons.mp hk with hhead | hmem
      · exact absurd hhead.symm heq
      · exact ih hfs hmem

/-! ### The normal form -/

mutual
/-- Values are the same up to the order of keys exactly when they have one normal form. -/
theorem sameJson_iff : ∀ (a : JsValue) {b : JsValue}, a.isJson = true → b.isJson = true →
    (SameJson a b ↔ canon a = canon b)
  | .arr es, b, ha, hb => by
    cases b with
    | arr es' =>
      rw [SameJson, canon, canon, JsValue.arr.injEq]
      exact sameElems_iff es ha hb
    | num y => cases y <;> simp [SameJson, canon, JsValue.posZero]
    | _ => simp [SameJson, canon]
  | .obj fs, b, ha, hb => by
    cases b with
    | obj gs =>
      obtain ⟨hown, hfs⟩ := Bool.and_eq_true_iff.mp ha
      obtain ⟨hown', hgs⟩ := Bool.and_eq_true_iff.mp hb
      have hnodup : (fs.map Prod.fst).Nodup := keys_nodup (of_decide_eq_true hown)
      have hnodup' : (gs.map Prod.fst).Nodup := keys_nodup (of_decide_eq_true hown')
      have hcanon : ((canonFields fs).map Prod.fst).Nodup := (canonFields_keys fs) ▸ hnodup
      have hcanon' : ((canonFields gs).map Prod.fst).Nodup := (canonFields_keys gs) ▸ hnodup'
      have hvalues := sameFields_canon fs hfs hgs
      rw [SameJson, canon, canon, JsValue.obj.injEq]
      -- sorted fields are the same exactly when the keys are and what they lead to is
      constructor
      · rintro ⟨hkeys, hsame⟩
        apply sortKeys_perm_eq hcanon'
        apply perm_of_getOwn hcanon hcanon'
        · rw [canonFields_keys, canonFields_keys]
          exact hkeys
        · intro k hk
          rw [canonFields_keys] at hk
          obtain ⟨f, hf, rfl⟩ := List.mem_map.mp hk
          rw [getOwn_canonFields, getOwn_canonFields, getOwn_of_mem hnodup hf]
          have hmem : f.1 ∈ gs.map Prod.fst := hkeys.subset hk
          exact (hvalues f hf hmem).mp (sameFields_iff.mp hsame f hf)
      · intro hsorted
        have hkeys : (fs.map Prod.fst).Perm (gs.map Prod.fst) := by
          rw [← canonFields_keys fs, ← canonFields_keys gs]
          exact (sortKeys_inj hsorted).map Prod.fst
        refine ⟨hkeys, sameFields_iff.mpr fun f hf => ?_⟩
        have hmem : f.1 ∈ gs.map Prod.fst := hkeys.subset (List.mem_map_of_mem hf)
        apply (hvalues f hf hmem).mpr
        have hget := canon_getOwn hnodup hnodup' (congrArg JsValue.obj hsorted) f.1
        rw [getOwn_of_mem hnodup hf] at hget
        exact hget
    | num y => cases y <;> simp [SameJson, canon, JsValue.posZero]
    | _ => simp [SameJson, canon]
  | .num x, b, _, _ => by
    cases b with
    | num y => rw [SameJson, canon, canon]
    | _ => cases x <;> simp [SameJson, canon, JsValue.posZero]
  | .null, b, _, _ => by
    cases b with
    | num y => cases y <;> simp [SameJson, canon, JsValue.posZero]
    | _ => simp [SameJson, canon]
  | .bool _, b, _, _ => by
    cases b with
    | num y => cases y <;> simp [SameJson, canon, JsValue.posZero]
    | _ => simp [SameJson, canon]
  | .str _, b, _, _ => by
    cases b with
    | num y => cases y <;> simp [SameJson, canon, JsValue.posZero]
    | _ => simp [SameJson, canon]
  | .undefined, _, ha, _ => by cases ha
  | .bigint _, _, ha, _ => by cases ha
  | .function, _, ha, _ => by cases ha
  | .symbol, _, ha, _ => by cases ha

theorem sameElems_iff : ∀ (es : List JsValue) {es' : List JsValue}, allJson es = true →
    allJson es' = true → (SameElems es es' ↔ canonAll es = canonAll es')
  | [], [], _, _ => by simp [SameElems]
  | [], w :: ws, _, _ => by simp [SameElems, canonAll]
  | v :: vs, [], _, _ => by simp [SameElems, canonAll]
  | v :: vs, w :: ws, h, h' => by
    obtain ⟨hv, hvs⟩ := Bool.and_eq_true_iff.mp h
    obtain ⟨hw, hws⟩ := Bool.and_eq_true_iff.mp h'
    rw [SameElems, canonAll, canonAll, List.cons.injEq, sameJson_iff v hv hw, sameElems_iff vs hvs hws]

theorem sameFields_canon : ∀ (fs : Fields) {gs : Fields}, fieldsJson fs = true → fieldsJson gs = true →
    ∀ f ∈ fs, f.1 ∈ gs.map Prod.fst →
      (SameJson f.2 (getOwn f.1 gs) ↔ canon f.2 = canon (getOwn f.1 gs))
  | [], _, _, _, f, hf, _ => absurd hf List.not_mem_nil
  | (k, v) :: fs, gs, h, hgs, f, hf, hmem => by
    obtain ⟨hv, hfs⟩ := Bool.and_eq_true_iff.mp h
    rcases List.mem_cons.mp hf with rfl | hf
    · exact sameJson_iff v hv (getOwn_isJson_of_mem hgs hmem)
    · exact sameFields_canon fs hfs hgs f hf hmem
end

/-! ### Reading the text back -/

theorem fieldsHaveText_iff {fs : Fields} : fieldsHaveText fs = true ↔ ∀ f ∈ fs, f.2.hasText = true := by
  induction fs with
  | nil => simp [fieldsHaveText]
  | cons f fs ih => rw [fieldsHaveText, Bool.and_eq_true, ih, List.forall_mem_cons]

/-- A new property goes anywhere among the others. -/
theorem setOwn_perm {k : JsString} {fs : Fields} (v : JsValue) (h : k ∉ fs.map Prod.fst) :
    (setOwn k v fs).Perm ((k, v) :: fs) := by
  induction fs with
  | nil => exact List.Perm.refl _
  | cons f fs ih =>
    obtain ⟨hne, hmem⟩ := not_or.mp (mt List.mem_cons.mpr h)
    rw [setOwn, if_neg (Ne.symm hne)]
    split_ifs
    · exact List.Perm.refl _
    · exact ((ih hmem).cons f).trans (List.Perm.swap ..)

/-- An object that is built from properties of different names has just these. -/
theorem ofEntries_perm {entries : Fields} (h : (entries.map Prod.fst).Nodup) :
    (ofEntries entries).Perm entries := by
  have key (todo done : Fields) (hnodup : ((done ++ todo).map Prod.fst).Nodup) :
      (todo.foldl (fun fs e => setOwn e.1 e.2 fs) done).Perm (done ++ todo) := by
    induction todo generalizing done with
    | nil => rw [List.append_nil, List.foldl_nil]
    | cons e todo ih =>
      have hmiddle : ((e :: (done ++ todo)).map Prod.fst).Nodup :=
        ((List.perm_middle (a := e)).map Prod.fst).nodup_iff.mp hnodup
      have hnew : e.1 ∉ done.map Prod.fst := by
        intro hmem
        apply (List.nodup_cons.mp hmiddle).1
        rw [List.map_append]
        exact List.mem_append_left _ hmem
      have hset := setOwn_perm e.2 hnew
      have hnext : ((setOwn e.1 e.2 done ++ todo).map Prod.fst).Nodup :=
        ((hset.append_right todo).map Prod.fst).nodup_iff.mpr hmiddle
      rw [List.foldl_cons]
      calc todo.foldl (fun fs e => setOwn e.1 e.2 fs) (setOwn e.1 e.2 done)
          ~ setOwn e.1 e.2 done ++ todo := ih _ hnext
        _ ~ e :: done ++ todo := hset.append_right todo
        _ ~ done ++ e :: todo := List.perm_middle.symm
  exact key entries [] h

mutual
theorem hasText_canon : ∀ v : JsValue, v.isJson = true → (canon v).hasText = true
  | .null, _ => rfl
  | .bool _, _ => rfl
  | .num (.fin _), _ => rfl
  | .num .nan, h => by cases h
  | .num (.inf _), h => by cases h
  | .str _, _ => rfl
  | .arr es, h => allHaveText_canon es h
  | .obj fs, h => by
    rw [canon, JsValue.hasText, fieldsHaveText_iff]
    intro f hf
    rw [mem_sortKeys, canonFields_eq, List.mem_map] at hf
    obtain ⟨g, hg, rfl⟩ := hf
    exact fieldsHaveText_canon fs (Bool.and_eq_true_iff.mp h).2 g hg
  | .undefined, h => by cases h
  | .bigint _, h => by cases h
  | .function, h => by cases h
  | .symbol, h => by cases h

theorem allHaveText_canon : ∀ es : List JsValue, allJson es = true → allHaveText (canonAll es) = true
  | [], _ => rfl
  | v :: vs, h => by
    obtain ⟨hv, hvs⟩ := Bool.and_eq_true_iff.mp h
    rw [canonAll, allHaveText, hasText_canon v hv, allHaveText_canon vs hvs]
    rfl

theorem fieldsHaveText_canon : ∀ fs : Fields, fieldsJson fs = true → ∀ f ∈ fs, (canon f.2).hasText = true
  | [], _, _, hf => absurd hf List.not_mem_nil
  | (_, v) :: fs, h, f, hf => by
    obtain ⟨hv, hfs⟩ := Bool.and_eq_true_iff.mp h
    rcases List.mem_cons.mp hf with rfl | hf
    · exact hasText_canon v hv
    · exact fieldsHaveText_canon fs hfs f hf
end

/-- The text of an object is made of its keys and the texts of its values. -/
theorem fieldTexts_eq {fs : Fields} (h : fieldsHaveText fs = true) :
    fieldTexts fs = fs.map fun f => memberText (f.1, jsonText f.2) := by
  induction fs with
  | nil => rfl
  | cons f fs ih =>
    obtain ⟨hv, hfs⟩ := Bool.and_eq_true_iff.mp h
    rw [fieldTexts_cons f.1 f.2 fs hv, ih hfs]
    rfl

theorem elemTexts_eq (es : List JsValue) : elemTexts es = es.map jsonText := by
  induction es with
  | nil => rfl
  | cons v es ih => rw [elemTexts, ih, List.map_cons]

mutual
/-- The canonical text is the JSON text of the normal form. -/
theorem encode_eq_jsonText : ∀ v : JsValue, v.isJson = true → encode v = .ok (jsonText (canon v))
  | .null, _ => rfl
  | .bool true, _ => rfl
  | .bool false, _ => rfl
  | .num (.fin d), _ => congrArg Except.ok (Decimal.toText_posZero d).symm
  | .num .nan, h => by cases h
  | .num (.inf _), h => by cases h
  | .str _, _ => rfl
  | .arr es, h => by
    rw [encode_arr_iff]
    refine ⟨es.map fun v => jsonText (canon v), ?_, ?_⟩
    · rw [List.map_map]
      exact List.map_congr_left (encode_eq_jsonText_all es h)
    · rw [canon, jsonText, elemTexts_eq, canonAll_eq, List.map_map]
      rfl
  | .obj fs, h => by
    have hfs := (Bool.and_eq_true_iff.mp h).2
    have htext : fieldsHaveText (sortKeys (canonFields fs)) = true := hasText_canon (.obj fs) h
    rw [encode_obj_iff]
    refine ⟨fs.map fun f => (f.1, jsonText (canon f.2)), ?_, ?_⟩
    · rw [List.map_map]
      refine List.map_congr_left fun f hf => ?_
      rw [encode_eq_jsonText_fields fs hfs f hf]
      rfl
    · rw [canon, jsonText, fieldTexts_eq htext, canonFields_eq, sortKeys_map, sortKeys_map, List.map_map,
        List.map_map]
      rfl
  | .undefined, h => by cases h
  | .bigint _, h => by cases h
  | .function, h => by cases h
  | .symbol, h => by cases h

theorem encode_eq_jsonText_all : ∀ es : List JsValue, allJson es = true →
    ∀ v ∈ es, encode v = .ok (jsonText (canon v))
  | [], _, _, hv => absurd hv List.not_mem_nil
  | u :: es, h, v, hv => by
    obtain ⟨hu, hes⟩ := Bool.and_eq_true_iff.mp h
    rcases List.mem_cons.mp hv with heq | hv
    · rw [heq]
      exact encode_eq_jsonText u hu
    · exact encode_eq_jsonText_all es hes v hv

theorem encode_eq_jsonText_fields : ∀ fs : Fields, fieldsJson fs = true →
    ∀ f ∈ fs, encode f.2 = .ok (jsonText (canon f.2))
  | [], _, _, hf => absurd hf List.not_mem_nil
  | (_, u) :: fs, h, f, hf => by
    obtain ⟨hu, hfs⟩ := Bool.and_eq_true_iff.mp h
    rcases List.mem_cons.mp hf with rfl | hf
    · exact encode_eq_jsonText u hu
    · exact encode_eq_jsonText_fields fs hfs f hf
end

theorem asReadFields_eq (fs : Fields) : asReadFields fs = fs.map fun f => (f.1, f.2.asRead) := by
  induction fs with
  | nil => rfl
  | cons f fs ih => rw [asReadFields, ih, List.map_cons]

theorem asReadAll_eq (es : List JsValue) : asReadAll es = es.map JsValue.asRead := by
  induction es with
  | nil => rfl
  | cons v es ih => rw [asReadAll, ih, List.map_cons]

mutual
/-- What is read from the text of a normal form has that normal form. -/
theorem canon_asRead : ∀ v : JsValue, v.isJson = true → canon (canon v).asRead = canon v
  | .null, _ => rfl
  | .bool _, _ => rfl
  | .num (.fin d), _ => by
    have hzero : d.posZero.posZero = d.posZero := by
      unfold Decimal.posZero
      split_ifs <;> rfl
    simp only [canon, JsValue.posZero, JsValue.asRead, hzero]
  | .num .nan, h => by cases h
  | .num (.inf _), h => by cases h
  | .str _, _ => rfl
  | .arr es, h => by
    rw [canon, JsValue.asRead, canon, JsValue.arr.injEq, canonAll_eq, canonAll_eq, asReadAll_eq, List.map_map,
      List.map_map]
    exact List.map_congr_left (canon_asRead_all es h)
  | .obj fs, h => by
    obtain ⟨hown, hfs⟩ := Bool.and_eq_true_iff.mp h
    have hnodup : (fs.map Prod.fst).Nodup := keys_nodup (of_decide_eq_true hown)
    have hread : (asReadFields (sortKeys (canonFields fs))).Perm
        (fs.map fun f => (f.1, (canon f.2).asRead)) := by
      rw [asReadFields_eq, canonFields_eq]
      have hperm := (List.mergeSort_perm (fs.map fun f => (f.1, canon f.2))
        fun a b => decide (a.1 ≤ b.1)).map fun f => (f.1, f.2.asRead)
      rw [List.map_map] at hperm
      exact hperm
    have hkeys : ((asReadFields (sortKeys (canonFields fs))).map Prod.fst).Nodup := by
      rw [(hread.map Prod.fst).nodup_iff, List.map_map]
      exact hnodup
    have hsame : (canonFields (ofEntries (asReadFields (sortKeys (canonFields fs))))).Perm
        (canonFields fs) := by
      have hmap := ((ofEntries_perm hkeys).trans hread).map fun f => (f.1, canon f.2)
      rw [← canonFields_eq, List.map_map] at hmap
      have hread' : (fs.map fun f => (f.1, canon (canon f.2).asRead)) = canonFields fs := by
        rw [canonFields_eq]
        refine List.map_congr_left fun f hf => ?_
        rw [canon_asRead_fields fs hfs f hf]
      exact hmap.trans (List.Perm.of_eq hread')
    rw [canon, JsValue.asRead, canon, JsValue.obj.injEq]
    apply sortKeys_perm_eq _ hsame
    rw [canonFields_keys]
    exact hnodup
  | .undefined, h => by cases h
  | .bigint _, h => by cases h
  | .function, h => by cases h
  | .symbol, h => by cases h

theorem canon_asRead_all : ∀ es : List JsValue, allJson es = true →
    ∀ v ∈ es, canon (canon v).asRead = canon v
  | [], _, _, hv => absurd hv List.not_mem_nil
  | u :: es, h, v, hv => by
    obtain ⟨hu, hes⟩ := Bool.and_eq_true_iff.mp h
    rcases List.mem_cons.mp hv with heq | hv
    · rw [heq]
      exact canon_asRead u hu
    · exact canon_asRead_all es hes v hv

theorem canon_asRead_fields : ∀ fs : Fields, fieldsJson fs = true →
    ∀ f ∈ fs, canon (canon f.2).asRead = canon f.2
  | [], _, _, hf => absurd hf List.not_mem_nil
  | (_, u) :: fs, h, f, hf => by
    obtain ⟨hu, hfs⟩ := Bool.and_eq_true_iff.mp h
    rcases List.mem_cons.mp hf with rfl | hf
    · exact canon_asRead u hu
    · exact canon_asRead_fields fs hfs f hf
end

/-! ### What has no text -/

mutual
/-- Something that JSON cannot name stands in the value, in no hole of an array. -/
def LiveValue.Unwritable : LiveValue → Prop
  | .prim v => v.val.hasText = false
  | .arr es => ElemsUnwritable es
  | .obj fs => MembersUnwritable fs
  | .exotic own _ => own.Unwritable

def ElemsUnwritable : List (Option LiveValue) → Prop
  | [] => False
  | none :: es => ElemsUnwritable es
  | some v :: es => v.Unwritable ∨ ElemsUnwritable es

def MembersUnwritable : List (JsString × LiveValue) → Prop
  | [] => False
  | (_, v) :: fs => v.Unwritable ∨ MembersUnwritable fs
end

mutual
/-- A value that is encoded is made of what JSON can name. -/
theorem writable_of_encode : ∀ (v : LiveValue) {t : JsString}, v.encode = .ok t → ¬ v.Unwritable
  | .prim v, t, h => by
    rw [LiveValue.Unwritable, hasText_of_isJson v.val (encode_atom v.property h).1]
    exact Bool.noConfusion
  | .arr es, t, h => by
    obtain ⟨parts, hparts, -⟩ := LiveValue.encode_arr_iff.mp h
    exact elems_writable es hparts
  | .obj fs, t, h => by
    obtain ⟨ms, hms, -⟩ := LiveValue.encode_obj_iff.mp h
    exact members_writable fs hms
  | .exotic own json, t, h => writable_of_encode own h

theorem elems_writable : ∀ (es : List (Option LiveValue)) {parts : List JsString},
    LiveValue.encodeElems es = parts.map .ok → ¬ ElemsUnwritable es
  | [], _, _ => id
  | none :: es, parts, h => by
    cases parts with
    | nil => cases h
    | cons p ps => exact elems_writable es (List.cons.inj h).2
  | some v :: es, parts, h => by
    cases parts with
    | nil => cases h
    | cons p ps =>
      rintro (hv | hes)
      · exact writable_of_encode v (List.cons.inj h).1 hv
      · exact elems_writable es (List.cons.inj h).2 hes

theorem members_writable : ∀ (fs : List (JsString × LiveValue)) {ms : List (JsString × JsString)},
    fs.map (fun f => (f.1, f.2.encode)) = ms.map (fun m => (m.1, .ok m.2)) → ¬ MembersUnwritable fs
  | [], _, _ => id
  | (k, v) :: fs, ms, h => by
    cases ms with
    | nil => cases h
    | cons m ms =>
      obtain ⟨hhead, htail⟩ := List.cons.inj h
      rintro (hv | hfs)
      · exact writable_of_encode v (Prod.mk.inj hhead).2 hv
      · exact members_writable fs htail hfs
end

/-! ### Canonical JSON -/

/-- For JSON values, the canonical texts are equal exactly when the values are, up to the order of keys and
the sign of zero; the text is read back as a value that is equal in this sense; and of any value with
something in it that JSON cannot name, there is no text. -/
theorem canonical_iff :
    (∀ a b : JsValue, a.isJson = true → b.isJson = true →
      (canonicalJson a = canonicalJson b ↔ SameJson a b)) ∧
    (∀ a : JsValue, a.isJson = true →
      ∃ text w, canonicalJson a = .ok text ∧ jsonParse text = some w ∧ SameJson a w) ∧
    ∀ v : LiveValue, v.Unwritable → ∃ e, v.encode = .error e := by
  refine ⟨fun a b ha hb => ?_, fun a ha => ?_, fun v hv => ?_⟩
  · rw [sameJson_iff a ha hb]
    constructor
    · intro h
      have htext := encode_eq_jsonText a ha
      exact encode_inj a htext (h.symm.trans htext)
    · intro h
      rw [canonicalJson, canonicalJson, encode_eq_jsonText a ha, encode_eq_jsonText b hb, h]
  · have hread := jsonParse_hasText (canon a) (hasText_canon a ha)
    refine ⟨_, _, encode_eq_jsonText a ha, hread, ?_⟩
    rw [sameJson_iff a ha (jsonParse_isJson hread), canon_asRead a ha]
  · cases h : v.encode with
    | ok t => exact absurd hv (writable_of_encode v h)
    | error e => exact ⟨e, rfl⟩

/-- Two objects that list their keys the other way round, and a list with `-0` in it -/
theorem canonical_iff_pair :
    (canonicalJson (.obj [(js "a", .num (.ofNat 0)), (js "b", .null)]) =
        canonicalJson (.obj [(js "b", .null), (js "a", .num (.ofNat 0))]) ↔
      SameJson (.obj [(js "a", .num (.ofNat 0)), (js "b", .null)])
        (.obj [(js "b", .null), (js "a", .num (.ofNat 0))])) ∧
    ∃ e, (LiveValue.arr [none, some .undefined]).encode = .error e :=
  ⟨canonical_iff.1 _ _ (by decide) (by decide), canonical_iff.2.2 _ (.inl rfl)⟩

end Homelab
