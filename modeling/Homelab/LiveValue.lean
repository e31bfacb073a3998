import Homelab.CanonicalInjective

/-! JavaScript values as the canonical encoder and `JSON.stringify` see them while they
are in memory: arrays may have holes, and an object may stand for other JSON than its own
fields (`toJSON`, `Date`, boxed primitives, getters that change their answer). -/
namespace Homelab
open Js

/-- A value in memory. A hole of a sparse array is `none`. An `exotic` object is any of
which the encoder sees `own`, its own enumerable fields or elements, and for which
`JSON.stringify` writes `json`, writes nothing (`none`) or throws. -/
inductive LiveValue
  | prim (v : {v : JsValue // JsAtom v})
  | arr (elems : List (Option LiveValue))
  | obj (fields : List (JsString × LiveValue))
  | exotic (own : LiveValue) (json : Except JsString (Option JsValue))

abbrev LiveFields := List (JsString × LiveValue)

namespace LiveValue

def undefined : LiveValue := .prim ⟨.undefined, trivial⟩

def null : LiveValue := .prim ⟨.null, trivial⟩

def num (x : JsNumber) : LiveValue := .prim ⟨.num x, trivial⟩

def str (s : JsString) : LiveValue := .prim ⟨.str s, trivial⟩

def isUndefined : LiveValue → Bool
  | .prim v => Homelab.isUndefined v.val
  | _ => false

/-! ### `encode` of `canonical-json.ts` -/

mutual
/-- `encode` on values in memory: `map` and `join` make a hole an empty text. -/
def encode : LiveValue → Except JsString JsString
  | .prim v => Homelab.encode v.val
  | .arr es => do
    let parts ← (encodeElems es).mapM id
    return 0x5B :: joinComma parts ++ [0x5D]
  | .obj fs => do
    let parts ← (sortKeys (encodeMembers fs)).mapM Prod.snd
    return 0x7B :: joinComma parts ++ [0x7D]
  | .exotic own _ => own.encode

def encodeElems : List (Option LiveValue) → List (Except JsString JsString)
  | [] => []
  | none :: es => .ok [] :: encodeElems es
  | some v :: es => v.encode :: encodeElems es

def encodeMembers : List (JsString × LiveValue) → List (JsString × Except JsString JsString)
  | [] => []
  | (k, v) :: fs =>
    (k, if v.isUndefined then
        .error (js "canonicalJson: undefined value at key '" ++ k ++ js "' is not JSON-serializable")
      else v.encode.map fun t => memberText (k, t)) :: encodeMembers fs
end

/-! ### `JSON.stringify` -/

/-- What `JSON.stringify` makes of a value that is no object. -/
def writtenPrim : JsValue → Except JsString (Option JsValue)
  | .bigint _ => .error (js "Do not know how to serialize a BigInt")
  | .num x => .ok (some (if x.isFinite then .num x else .null))
  | v => .ok (if v.isOmitted then none else some v)

mutual
/-- The JSON value of which `JSON.stringify` writes the text, or `none` for no text. -/
def written : LiveValue → Except JsString (Option JsValue)
  | .prim v => writtenPrim v.val
  | .arr es => do return some (.arr (← writtenElems es))
  | .obj fs => do return some (.obj (← writtenMembers fs))
  | .exotic _ json => json

def writtenElems : List (Option LiveValue) → Except JsString (List JsValue)
  | [] => .ok []
  | none :: es => do return .null :: (← writtenElems es)
  | some v :: es => do
    let w ← v.written
    return w.getD .null :: (← writtenElems es)

def writtenMembers : List (JsString × LiveValue) → Except JsString Fields
  | [] => .ok []
  | (k, v) :: fs => do
    let w ← v.written
    let rest ← writtenMembers fs
    return (w.map fun j => (k, j)).toList ++ rest
end

/-- `JSON.stringify(v)` -/
def stringify (v : LiveValue) : Except JsString (Option JsString) := do
  return (← v.written).map jsonText

def jsonOrThrow : Except JsString (Option JsValue) → Bool
  | .ok (some j) => j.isJson
  | _ => true

mutual
/-- Objects list their keys in order, and an exotic object is an object or an array for
which `JSON.stringify` can write JSON only. -/
def wellFormed : LiveValue → Bool
  | .prim _ => true
  | .arr es => elemsWellFormed es
  | .obj fs => decide (OwnOrder (fs.map Prod.fst)) && membersWellFormed fs
  | .exotic (.arr _) json => jsonOrThrow json
  | .exotic (.obj _) json => jsonOrThrow json
  | .exotic _ _ => false

def elemsWellFormed : List (Option LiveValue) → Bool
  | [] => true
  | none :: es => elemsWellFormed es
  | some v :: es => v.wellFormed && elemsWellFormed es

def membersWellFormed : List (JsString × LiveValue) → Bool
  | [] => true
  | (_, v) :: fs => v.wellFormed && membersWellFormed fs
end

mutual
/-- The encoder and `JSON.stringify` see the same: no array has a hole, and every exotic
object is encoded as the JSON that is written for it. -/
def Faithful : LiveValue → Prop
  | .prim _ => True
  | .arr es => ElemsFaithful es
  | .obj fs => MembersFaithful fs
  | .exotic own json => ∃ j, json = .ok (some j) ∧ own.encode = Homelab.encode j

def ElemsFaithful : List (Option LiveValue) → Prop
  | [] => True
  | none :: _ => False
  | some v :: es => v.Faithful ∧ ElemsFaithful es

def MembersFaithful : List (JsString × LiveValue) → Prop
  | [] => True
  | (_, v) :: fs => v.Faithful ∧ MembersFaithful fs
end

/-! ### Texts -/

theorem encodeMembers_eq (fs : LiveFields) : encodeMembers fs = fs.map fun f => (f.1,
    if f.2.isUndefined then
      .error (js "canonicalJson: undefined value at key '" ++ f.1 ++ js "' is not JSON-serializable")
    else f.2.encode.map fun t => memberText (f.1, t)) := by
  induction fs with
  | nil => rfl
  | cons f fs ih => rw [encodeMembers, ih, List.map_cons]

theorem encode_undefined {v : LiveValue} {t : JsString} (h : v.encode = .ok t) :
    v.isUndefined = false := by
  cases v with
  | prim p => exact Homelab.encode_undefined h
  | _ => rfl

theorem encodeMember_iff (f : JsString × LiveValue) (x : JsString) :
    (if f.2.isUndefined then
        .error (js "canonicalJson: undefined value at key '" ++ f.1 ++
          js "' is not JSON-serializable")
      else f.2.encode.map fun t => memberText (f.1, t)) = .ok x ↔
      ∃ e, f.2.encode = .ok e ∧ x = memberText (f.1, e) := by
  split_ifs with hundefined
  · constructor
    · intro h
      cases h
    · intro h
      obtain ⟨e, he, _⟩ := h
      rw [encode_undefined he] at hundefined
      cases hundefined
  · exact map_ok_iff

theorem encode_arr_iff {es : List (Option LiveValue)} {t : JsString} :
    (LiveValue.arr es).encode = .ok t ↔
      ∃ parts, encodeElems es = parts.map .ok ∧ t = 0x5B :: joinComma parts ++ [0x5D] := by
  rw [encode]
  exact arrayText_iff

theorem encode_obj_iff {fs : LiveFields} {t : JsString} : (LiveValue.obj fs).encode = .ok t ↔
    ∃ ms : List (JsString × JsString),
      fs.map (fun f => (f.1, f.2.encode)) = ms.map (fun m => (m.1, .ok m.2)) ∧
        t = 0x7B :: joinComma ((sortKeys ms).map memberText) ++ [0x7D] := by
  rw [encode, encodeMembers_eq]
  exact objectText_iff encodeMember_iff fs t

mutual
theorem encode_piece : ∀ (v : LiveValue) {t : JsString}, v.encode = .ok t → Piece t
  | .prim p, _, h => by
    have hpiece := Homelab.encode_piece p.val h
    exact hpiece.1
  | .arr es, _, h => by
    obtain ⟨parts, hparts, rfl⟩ := encode_arr_iff.mp h
    exact .array (.joinComma (encodeElems_piece es hparts))
  | .obj fs, _, h => by
    obtain ⟨ms, hms, rfl⟩ := encode_obj_iff.mp h
    refine .object (.joinComma fun t ht => ?_)
    obtain ⟨m, hm, rfl⟩ := List.mem_map.mp ht
    exact .member (encodeMembers_piece fs hms m (mem_sortKeys.mp hm))
  | .exotic own _, _, h => encode_piece own h

theorem encodeElems_piece : ∀ (es : List (Option LiveValue)) {parts : List JsString},
    encodeElems es = parts.map .ok → ∀ t ∈ parts, Piece t
  | _, [], _, _, ht => absurd ht List.not_mem_nil
  | [], _ :: _, h, _, _ => (by cases h)
  | none :: es, p :: ps, h, t, ht => by
    obtain ⟨hp, hps⟩ := List.cons.inj h
    rcases List.mem_cons.mp ht with heq | ht
    · rw [heq, ← Except.ok.inj hp]
      exact .ofAll rfl
    · exact encodeElems_piece es hps t ht
  | some v :: es, p :: ps, h, t, ht => by
    obtain ⟨hp, hps⟩ := List.cons.inj h
    rcases List.mem_cons.mp ht with heq | ht
    · rw [heq]
      exact encode_piece v hp
    · exact encodeElems_piece es hps t ht

theorem encodeMembers_piece : ∀ (fs : List (JsString × LiveValue)) {ms : List (JsString × JsString)},
    fs.map (fun f => (f.1, f.2.encode)) = ms.map (fun m => (m.1, .ok m.2)) → ∀ m ∈ ms, Piece m.2
  | _, [], _, _, hm => absurd hm List.not_mem_nil
  | [], _ :: _, h, _, _ => (by cases h)
  | (_, v) :: fs, x :: ms, h, m, hm => by
    obtain ⟨hx, hms⟩ := List.cons.inj h
    rcases List.mem_cons.mp hm with heq | hm
    · rw [heq]
      exact encode_piece v (Prod.mk.inj hx).2
    · exact encodeMembers_piece fs hms m hm
end

/-! ### What is written -/

theorem written_arr_iff {es : List (Option LiveValue)} {r : Option JsValue} :
    (LiveValue.arr es).written = .ok r ↔ ∃ vs, writtenElems es = .ok vs ∧ r = some (.arr vs) := by
  rw [written]
  exact map_ok_iff

theorem written_obj_iff {fs : LiveFields} {r : Option JsValue} :
    (LiveValue.obj fs).written = .ok r ↔ ∃ gs, writtenMembers fs = .ok gs ∧ r = some (.obj gs) := by
  rw [written]
  exact map_ok_iff

theorem writtenElems_hole_iff {es : List (Option LiveValue)} {vs : List JsValue} :
    writtenElems (none :: es) = .ok vs ↔ ∃ ws, writtenElems es = .ok ws ∧ vs = .null :: ws := by
  rw [writtenElems]
  exact map_ok_iff

theorem bind_ok_iff {ε α β : Type} {r : Except ε α} {f : α → Except ε β} {b : β} :
    r >>= f = .ok b ↔ ∃ a, r = .ok a ∧ f a = .ok b := by
  cases r with
  | error e =>
    constructor
    · intro h
      cases h
    · intro h
      obtain ⟨a, h, _⟩ := h
      cases h
  | ok a =>
    constructor
    · intro h
      exact ⟨a, rfl, h⟩
    · intro h
      obtain ⟨a', ha, h⟩ := h
      rw [Except.ok.inj ha]
      exact h

theorem writtenElems_cons_iff {v : LiveValue} {es : List (Option LiveValue)} {vs : List JsValue} :
    writtenElems (some v :: es) = .ok vs ↔
      ∃ r ws, v.written = .ok r ∧ writtenElems es = .ok ws ∧ vs = r.getD .null :: ws := by
  rw [writtenElems, bind_ok_iff]
  apply exists_congr
  intro r
  rw [map_ok_iff, exists_and_left]

theorem writtenMembers_cons_iff {k : JsString} {v : LiveValue} {fs : LiveFields} {gs : Fields} :
    writtenMembers ((k, v) :: fs) = .ok gs ↔
      ∃ r hs, v.written = .ok r ∧ writtenMembers fs = .ok hs ∧
        gs = (r.map fun j => (k, j)).toList ++ hs := by
  rw [writtenMembers, bind_ok_iff]
  apply exists_congr
  intro r
  rw [map_ok_iff, exists_and_left]

theorem writtenMembers_keys {fs : LiveFields} {gs : Fields} (h : writtenMembers fs = .ok gs) :
    (gs.map Prod.fst).Sublist (fs.map Prod.fst) := by
  induction fs generalizing gs with
  | nil =>
    cases h
    exact .slnil
  | cons f fs ih =>
    obtain ⟨k, v⟩ := f
    obtain ⟨r, hs, _, hhs, rfl⟩ := writtenMembers_cons_iff.mp h
    cases r with
    | none => exact (ih hhs).cons k
    | some j => exact (ih hhs).cons_cons k

theorem writtenPrim_isJson {v : JsValue} (hv : JsAtom v) {j : JsValue}
    (h : writtenPrim v = .ok (some j)) : j.isJson = true := by
  cases v with
  | num x =>
    cases h
    split_ifs with hx
    · exact hx
    · rfl
  | null => cases h; rfl
  | bool b => cases h; rfl
  | str s => cases h; rfl
  | arr es => exact hv.elim
  | obj fs => exact hv.elim
  | undefined => cases h
  | bigint n => cases h
  | function => cases h
  | symbol => cases h

theorem jsonOrThrow_isJson {own : LiveValue} {j : JsValue}
    (h : (LiveValue.exotic own (.ok (some j))).wellFormed = true) : j.isJson = true := by
  cases own with
  | arr es => exact h
  | obj fs => exact h
  | prim p => cases h
  | exotic own json => cases h

mutual
/-- `JSON.stringify` writes the text of a JSON value. -/
theorem written_isJson : ∀ (v : LiveValue) {j : JsValue}, v.wellFormed = true →
    v.written = .ok (some j) → j.isJson = true
  | .prim p, _, _, h => writtenPrim_isJson p.property h
  | .arr es, _, hwf, h => by
    obtain ⟨vs, hvs, heq⟩ := written_arr_iff.mp h
    rw [Option.some.inj heq]
    exact writtenElems_isJson es hwf hvs
  | .obj fs, _, hwf, h => by
    obtain ⟨gs, hgs, heq⟩ := written_obj_iff.mp h
    rw [wellFormed, Bool.and_eq_true, decide_eq_true_iff] at hwf
    rw [Option.some.inj heq, JsValue.isJson, Bool.and_eq_true, decide_eq_true_iff]
    exact ⟨hwf.1.sublist (writtenMembers_keys hgs), writtenMembers_isJson fs hwf.2 hgs⟩
  | .exotic own json, _, hwf, h => by
    rw [written] at h
    rw [h] at hwf
    exact jsonOrThrow_isJson hwf

theorem writtenElems_isJson : ∀ (es : List (Option LiveValue)) {vs : List JsValue},
    elemsWellFormed es = true → writtenElems es = .ok vs → allJson vs = true
  | [], _, _, h => Except.ok.inj h ▸ rfl
  | none :: es, _, hwf, h => by
    obtain ⟨ws, hws, heq⟩ := writtenElems_hole_iff.mp h
    rw [heq, allJson, JsValue.isJson, Bool.true_and]
    exact writtenElems_isJson es hwf hws
  | some v :: es, _, hwf, h => by
    obtain ⟨r, ws, hr, hws, heq⟩ := writtenElems_cons_iff.mp h
    rw [elemsWellFormed, Bool.and_eq_true] at hwf
    rw [heq, allJson, Bool.and_eq_true]
    refine ⟨?_, writtenElems_isJson es hwf.2 hws⟩
    cases r with
    | none => rfl
    | some j => exact written_isJson v hwf.1 hr

theorem writtenMembers_isJson : ∀ (fs : List (JsString × LiveValue)) {gs : Fields},
    membersWellFormed fs = true → writtenMembers fs = .ok gs → fieldsJson gs = true
  | [], _, _, h => Except.ok.inj h ▸ rfl
  | (_, v) :: fs, _, hwf, h => by
    obtain ⟨r, hs, hr, hhs, heq⟩ := writtenMembers_cons_iff.mp h
    rw [membersWellFormed, Bool.and_eq_true] at hwf
    rw [heq]
    cases r with
    | none => exact writtenMembers_isJson fs hwf.2 hhs
    | some j =>
      rw [Option.map_some, Option.toList_some, List.singleton_append, fieldsJson, Bool.and_eq_true]
      exact ⟨written_isJson v hwf.1 hr, writtenMembers_isJson fs hwf.2 hhs⟩
end

/-! ### Faithful values -/

theorem writtenPrim_encode {v : JsValue} (hv : JsAtom v) {t : JsString}
    (h : Homelab.encode v = .ok t) : writtenPrim v = .ok (some v) := by
  cases v with
  | num x =>
    obtain ⟨d, rfl, _⟩ := encode_num h
    rfl
  | null => rfl
  | bool b => rfl
  | str s => rfl
  | arr es => exact hv.elim
  | obj fs => exact hv.elim
  | undefined => cases h
  | bigint n => cases h
  | function => cases h
  | symbol => cases h

mutual
/-- What is written for a faithful value has its canonical text. -/
theorem Faithful.written : ∀ (v : LiveValue) {t : JsString}, v.Faithful → v.encode = .ok t →
    ∃ j, v.written = .ok (some j) ∧ Homelab.encode j = .ok t
  | .prim p, _, _, h => ⟨p.val, writtenPrim_encode p.property h, h⟩
  | .arr es, _, hf, h => by
    obtain ⟨parts, hparts, rfl⟩ := encode_arr_iff.mp h
    obtain ⟨vs, hvs, hencode⟩ := ElemsFaithful.written es hf hparts
    exact ⟨.arr vs, written_arr_iff.mpr ⟨vs, hvs, rfl⟩,
      Homelab.encode_arr_iff.mpr ⟨parts, hencode, rfl⟩⟩
  | .obj fs, _, hf, h => by
    obtain ⟨ms, hms, rfl⟩ := encode_obj_iff.mp h
    obtain ⟨gs, hgs, hencode⟩ := MembersFaithful.written fs hf hms
    exact ⟨.obj gs, written_obj_iff.mpr ⟨gs, hgs, rfl⟩,
      Homelab.encode_obj_iff.mpr ⟨ms, hencode, rfl⟩⟩
  | .exotic own json, _, hf, h => by
    obtain ⟨j, hjson, hencode⟩ := hf
    exact ⟨j, hjson, hencode ▸ h⟩

theorem ElemsFaithful.written : ∀ (es : List (Option LiveValue)) {parts : List JsString},
    ElemsFaithful es → encodeElems es = parts.map .ok →
      ∃ vs, writtenElems es = .ok vs ∧ vs.map Homelab.encode = parts.map .ok
  | [], [], _, _ => ⟨[], rfl, rfl⟩
  | [], _ :: _, _, h => (by cases h)
  | none :: _, _, hf, _ => hf.elim
  | some _ :: _, [], _, h => (by cases h)
  | some v :: es, p :: ps, hf, h => by
    obtain ⟨hp, hps⟩ := List.cons.inj h
    obtain ⟨j, hj, hencode⟩ := Faithful.written v hf.1 hp
    obtain ⟨vs, hvs, hencodes⟩ := ElemsFaithful.written es hf.2 hps
    refine ⟨j :: vs, writtenElems_cons_iff.mpr ⟨some j, vs, hj, hvs, rfl⟩, ?_⟩
    rw [List.map_cons, List.map_cons, hencode, hencodes]

theorem MembersFaithful.written : ∀ (fs : List (JsString × LiveValue))
    {ms : List (JsString × JsString)}, MembersFaithful fs →
    fs.map (fun f => (f.1, f.2.encode)) = ms.map (fun m => (m.1, .ok m.2)) →
      ∃ gs, writtenMembers fs = .ok gs ∧
        gs.map (fun g => (g.1, Homelab.encode g.2)) = ms.map (fun m => (m.1, .ok m.2))
  | [], [], _, _ => ⟨[], rfl, rfl⟩
  | [], _ :: _, _, h => (by cases h)
  | _ :: _, [], _, h => (by cases h)
  | (k, v) :: fs, m :: ms, hf, h => by
    obtain ⟨hm, hms⟩ := List.cons.inj h
    obtain ⟨hk, he⟩ := Prod.mk.inj hm
    obtain ⟨j, hj, hencode⟩ := Faithful.written v hf.1 he
    obtain ⟨gs, hgs, hencodes⟩ := MembersFaithful.written fs hf.2 hms
    refine ⟨(k, j) :: gs, writtenMembers_cons_iff.mpr ⟨some j, gs, hj, hgs, rfl⟩, ?_⟩
    rw [List.map_cons, List.map_cons, hencode, hencodes]
    exact congrArg (fun k' => (k', _) :: _) hk
end

theorem encodeElems_length (es : List (Option LiveValue)) : (encodeElems es).length = es.length := by
  induction es with
  | nil => rfl
  | cons e es ih =>
    cases e with
    | none => rw [encodeElems, List.length_cons, List.length_cons, ih]
    | some v => rw [encodeElems, List.length_cons, List.length_cons, ih]

theorem writtenElems_length {es : List (Option LiveValue)} {vs : List JsValue}
    (h : writtenElems es = .ok vs) : vs.length = es.length := by
  induction es generalizing vs with
  | nil =>
    cases h
    rfl
  | cons e es ih =>
    cases e with
    | none =>
      obtain ⟨ws, hws, rfl⟩ := writtenElems_hole_iff.mp h
      rw [List.length_cons, List.length_cons, ih hws]
    | some v =>
      obtain ⟨r, ws, _, hws, rfl⟩ := writtenElems_cons_iff.mp h
      rw [List.length_cons, List.length_cons, ih hws]

/-- Members with the same distinct keys in the same order that are a permutation of each
other are the same. -/
theorem members_eq_of_perm {ms ms' : List (JsString × JsString)}
    (hkeys : ms.map Prod.fst = ms'.map Prod.fst) (hnodup : (ms.map Prod.fst).Nodup)
    (hperm : ms.Perm ms') : ms = ms' := by
  induction ms generalizing ms' with
  | nil => exact (List.map_eq_nil_iff.mp hkeys.symm).symm
  | cons m ms ih =>
    cases ms' with
    | nil => cases hkeys
    | cons m' ms' =>
      obtain ⟨hkey, hrest⟩ := List.cons.inj hkeys
      obtain ⟨hfresh, hnodup⟩ := List.nodup_cons.mp hnodup
      have hmem : m ∈ m' :: ms' := hperm.mem_iff.mp (List.mem_cons_self ..)
      obtain rfl : m = m' := by
        rcases List.mem_cons.mp hmem with heq | hmem
        · exact heq
        · exact absurd (hrest ▸ List.mem_map_of_mem hmem) hfresh
      rw [ih hrest hnodup hperm.cons_inv]

theorem member_keys {α : Type} {enc : α → Except JsString JsString} {fs : List (JsString × α)}
    {ms : List (JsString × JsString)}
    (h : fs.map (fun f => (f.1, enc f.2)) = ms.map (fun m => (m.1, .ok m.2))) :
    fs.map Prod.fst = ms.map Prod.fst := by
  have hkeys := congrArg (List.map Prod.fst) h
  rwa [List.map_map, List.map_map] at hkeys

theorem sortKeys_perm {α : Type} (l : List (JsString × α)) : (sortKeys l).Perm l :=
  List.mergeSort_perm l _

/-- A list of members that is written in full is written under its own keys. -/
theorem writtenMembers_full {fs : LiveFields} {gs : Fields} (h : writtenMembers fs = .ok gs)
    (hlength : gs.length = fs.length) : gs.map Prod.fst = fs.map Prod.fst := by
  apply (writtenMembers_keys h).eq_of_length
  rw [List.length_map, List.length_map, hlength]

/-- The text of an array or an object is not the one of `null`. -/
theorem exotic_ne_null {own : LiveValue} {json : Except JsString (Option JsValue)}
    (hwf : (LiveValue.exotic own json).wellFormed = true)
    (h : (LiveValue.exotic own json).encode = Homelab.encode .null) : False := by
  rw [encode] at h
  cases own with
  | arr es =>
    obtain ⟨parts, _, htext⟩ := encode_arr_iff.mp h
    exact absurd (List.cons.inj htext).1 (by decide)
  | obj fs =>
    obtain ⟨ms, _, htext⟩ := encode_obj_iff.mp h
    exact absurd (List.cons.inj htext).1 (by decide)
  | prim p => cases hwf
  | exotic own json => cases hwf

/-- Only a primitive that is omitted from an array can have the text of `null`. -/
theorem faithful_of_omitted {v : LiveValue} (hwf : v.wellFormed = true)
    (h : v.encode = Homelab.encode .null) (hw : v.written = .ok none) : v.Faithful := by
  cases v with
  | prim p => trivial
  | arr es =>
    obtain ⟨vs, _, heq⟩ := written_arr_iff.mp hw
    cases heq
  | obj fs =>
    obtain ⟨gs, _, heq⟩ := written_obj_iff.mp hw
    cases heq
  | exotic own json => exact (exotic_ne_null hwf h).elim

mutual
/-- A value of which something with its canonical text is written is faithful. -/
theorem faithful_of_encode : ∀ (v : LiveValue) {j : JsValue} {t : JsString},
    v.wellFormed = true → v.encode = .ok t → v.written = .ok (some j) →
      Homelab.encode j = .ok t → v.Faithful
  | .prim _, _, _, _, _, _, _ => trivial
  | .arr es, _, _, hwf, h, hw, he => by
    obtain ⟨parts, hparts, rfl⟩ := encode_arr_iff.mp h
    obtain ⟨vs, hvs, heq⟩ := written_arr_iff.mp hw
    rw [Option.some.inj heq] at he
    obtain ⟨parts', hparts', htext⟩ := Homelab.encode_arr_iff.mp he
    -- both texts have one part for each element, so they are cut in the same way
    have hlength : parts.length = parts'.length := by
      have h1 := congrArg List.length hparts
      have h2 := congrArg List.length hparts'
      rw [encodeElems_length, List.length_map] at h1
      rw [List.length_map, List.length_map, writtenElems_length hvs] at h2
      exact h1.symm.trans h2
    have hsame : parts = parts' := by
      refine joinComma_inj (encodeElems_piece es hparts) (fun t ht => (mem_parts hparts' t ht).1)
        (Or.inr hlength) (Or.inl rfl) ?_
      exact (List.cons.inj htext).2
    exact elemsFaithful_of_encode es hwf hparts hvs (hsame ▸ hparts')
  | .obj fs, _, _, hwf, h, hw, he => by
    obtain ⟨ms, hms, rfl⟩ := encode_obj_iff.mp h
    obtain ⟨gs, hgs, heq⟩ := written_obj_iff.mp hw
    rw [Option.some.inj heq] at he
    obtain ⟨ms', hms', htext⟩ := Homelab.encode_obj_iff.mp he
    rw [wellFormed, Bool.and_eq_true, decide_eq_true_iff] at hwf
    obtain ⟨_, hpiece'⟩ := sorted_members hms'
    have hsorted : sortKeys ms = sortKeys ms' := by
      apply members_eq (fun m hm => encodeMembers_piece fs hms m (mem_sortKeys.mp hm)) hpiece'
      exact (List.cons.inj htext).2
    have hperm : ms.Perm ms' := (sortKeys_perm ms).symm.trans (hsorted ▸ sortKeys_perm ms')
    obtain ⟨hkeys, hkeys'⟩ := And.intro (member_keys hms) (member_keys hms')
    have hlength : gs.length = fs.length := by
      have hwritten := congrArg List.length hkeys
      have hread := congrArg List.length hkeys'
      rw [List.length_map, List.length_map] at hwritten hread
      rw [hwritten, hread, hperm.length_eq]
    have hsame : ms = ms' := by
      apply members_eq_of_perm _ _ hperm
      · rw [← hkeys, ← hkeys', writtenMembers_full hgs hlength]
      · rw [← hkeys]
        exact hwf.1.imp And.left
    exact membersFaithful_of_encode fs hwf.2 hms hgs (hsame ▸ hms')
  | .exotic own json, _, _, _, h, hw, he => by
    exact ⟨_, hw, h.trans he.symm⟩

theorem elemsFaithful_of_encode : ∀ (es : List (Option LiveValue)) {vs : List JsValue}
    {parts : List JsString}, elemsWellFormed es = true → encodeElems es = parts.map .ok →
      writtenElems es = .ok vs → vs.map Homelab.encode = parts.map .ok → ElemsFaithful es
  | [], _, _, _, _, _, _ => trivial
  | none :: es, _, _, _, h, hw, he => by
    obtain ⟨ws, _, rfl⟩ := writtenElems_hole_iff.mp hw
    rw [encodeElems, ← he] at h
    exact absurd (Except.ok.inj (List.cons.inj h).1) (by decide)
  | some _ :: _, _, [], _, h, _, _ => (by cases h)
  | some v :: es, _, p :: ps, hwf, h, hw, he => by
    obtain ⟨r, ws, hr, hws, rfl⟩ := writtenElems_cons_iff.mp hw
    rw [elemsWellFormed, Bool.and_eq_true] at hwf
    obtain ⟨hv, hes⟩ := List.cons.inj h
    obtain ⟨hread, hreads⟩ := List.cons.inj he
    refine ⟨?_, elemsFaithful_of_encode es hwf.2 hes hws hreads⟩
    cases r with
    | none => exact faithful_of_omitted hwf.1 (hv.trans hread.symm) hr
    | some j => exact faithful_of_encode v hwf.1 hv hr hread

theorem membersFaithful_of_encode : ∀ (fs : List (JsString × LiveValue)) {gs : Fields}
    {ms : List (JsString × JsString)}, membersWellFormed fs = true →
      fs.map (fun f => (f.1, f.2.encode)) = ms.map (fun m => (m.1, .ok m.2)) →
      writtenMembers fs = .ok gs → gs.map (fun g => (g.1, Homelab.encode g.2)) =
        ms.map (fun m => (m.1, .ok m.2)) → MembersFaithful fs
  | [], _, _, _, _, _, _ => trivial
  | _ :: _, _, [], _, h, _, _ => (by cases h)
  | (k, v) :: fs, _, m :: ms, hwf, h, hw, he => by
    obtain ⟨r, hs, hr, hhs, rfl⟩ := writtenMembers_cons_iff.mp hw
    rw [membersWellFormed, Bool.and_eq_true] at hwf
    obtain ⟨hm, hms⟩ := List.cons.inj h
    cases r with
    | none =>
      -- a member left out cannot be made up for by the others
      have hle := (writtenMembers_keys hhs).length_le
      have hlength := congrArg List.length (member_keys hms)
      have hlength' := congrArg List.length (member_keys he)
      simp only [List.length_map, List.length_cons] at hle hlength hlength'
      change hs.length = _ at hlength'
      omega
    | some j =>
      obtain ⟨hread, hreads⟩ := List.cons.inj he
      exact ⟨faithful_of_encode v hwf.1 (Prod.mk.inj hm).2 hr (Prod.mk.inj hread).2,
        membersFaithful_of_encode fs hwf.2 hms hhs hreads⟩
end

end LiveValue

end Homelab
