import Homelab.CanonicalJson
import Homelab.JsonPieces

/-! The canonical text determines the value, up to the order of keys and the sign of
zero: its parts are pieces that the separators between them cannot be mistaken for. -/
namespace Homelab
open Js

mutual
/-- The value with the keys of its objects sorted, and `0` for `-0`. -/
def canon : JsValue → JsValue
  | .arr es => .arr (canonAll es)
  | .obj fs => .obj (sortKeys (canonFields fs))
  | .num x => (JsValue.num x).posZero
  | .undefined => .undefined
  | .null => .null
  | .bool b => .bool b
  | .str s => .str s
  | .bigint n => .bigint n
  | .function => .function
  | .symbol => .symbol

def canonAll : List JsValue → List JsValue
  | [] => []
  | v :: vs => canon v :: canonAll vs

def canonFields : Fields → Fields
  | [] => []
  | (k, v) :: fs => (k, canon v) :: canonFields fs
end

theorem canonAll_eq (es : List JsValue) : canonAll es = es.map canon := by
  induction es with
  | nil => rfl
  | cons v es ih => rw [canonAll, ih, List.map_cons]

theorem canonFields_eq (fs : Fields) : canonFields fs = fs.map fun f => (f.1, canon f.2) := by
  induction fs with
  | nil => rfl
  | cons f fs ih => rw [canonFields, ih, List.map_cons]

/-! ### What an encoding is made of -/

theorem mapM_ok_iff {α β ε : Type} (f : α → Except ε β) (l : List α) (bs : List β) :
    l.mapM f = .ok bs ↔ l.map f = bs.map .ok := by
  induction l generalizing bs with
  | nil => cases bs <;> simp [pure, Except.pure]
  | cons a l ih =>
    rw [List.mapM_cons, List.map_cons]
    cases ha : f a with
    | error e =>
      constructor
      · intro h
        cases h
      · intro h
        cases bs with
        | nil => cases h
        | cons b bs => cases (List.cons.inj h).1
    | ok b =>
      cases hl : l.mapM f with
      | error e =>
        constructor
        · intro h
          cases h
        · intro h
          cases bs with
          | nil => cases h
          | cons b' bs =>
            rw [(ih bs).mpr (List.cons.inj h).2] at hl
            cases hl
      | ok bs' =>
        have hbs' := (ih bs').mp hl
        constructor
        · intro h
          cases h
          rw [hbs', List.map_cons]
        · intro h
          cases bs with
          | nil => cases h
          | cons b' bs =>
            obtain ⟨hb, hrest⟩ := List.cons.inj h
            have hl' := (ih bs).mpr hrest
            rw [hl] at hl'
            cases hb
            cases hl'
            rfl

theorem sortKeys_map {α β : Type} (g : JsString × α → β) (l : List (JsString × α)) :
    sortKeys (l.map fun m => (m.1, g m)) = (sortKeys l).map fun m => (m.1, g m) :=
  (List.map_mergeSort (f := fun m : JsString × α => (m.1, g m)) fun _ _ _ _ => rfl).symm

theorem sortKeys_of_sorted {α : Type} {l : List (JsString × α)}
    (h : (l.map Prod.fst).Pairwise (· ≤ ·)) : sortKeys l = l := by
  rw [List.pairwise_map] at h
  exact List.mergeSort_of_pairwise (h.imp fun hle => decide_eq_true hle)

theorem mem_sortKeys {α : Type} {m : JsString × α} {l : List (JsString × α)} :
    m ∈ sortKeys l ↔ m ∈ l := List.mem_mergeSort

/-- Fields in another order are sorted to the same fields. -/
theorem sortKeys_eq_of_perm {α : Type} {l l' : List (JsString × α)} (hperm : l.Perm l')
    (hsorted : (l'.map Prod.fst).Pairwise (· ≤ ·)) (hnodup : (l'.map Prod.fst).Nodup) :
    sortKeys l = l' := by
  have hkeys : (sortKeys l).Pairwise fun a b => a.1 ≤ b.1 := by
    refine (List.pairwise_mergeSort ?_ ?_ l).imp fun h => of_decide_eq_true h
    · intro a b c hab hbc
      exact decide_eq_true (List.le_trans (of_decide_eq_true hab) (of_decide_eq_true hbc))
    · intro a b
      rcases List.le_total a.1 b.1 with hle | hle
      · rw [decide_eq_true hle, Bool.true_or]
      · rw [decide_eq_true hle, Bool.or_true]
  apply List.Perm.eq_of_pairwise _ hkeys (List.pairwise_map.mp hsorted)
  · exact (List.mergeSort_perm _ _).trans hperm
  · -- two members of one key are the same member
    intro a b ha hb hab hba
    have ha' : a ∈ l' := hperm.subset (mem_sortKeys.mp ha)
    exact List.inj_on_of_nodup_map hnodup ha' hb (List.le_antisymm hab hba)

/-- Collecting results in the order of their keys. -/
theorem collect_iff {rs : List (JsString × Except JsString JsString)} {parts : List JsString} :
    (sortKeys rs).mapM Prod.snd = .ok parts ↔ ∃ ms : List (JsString × JsString),
      rs = ms.map (fun m => (m.1, .ok m.2)) ∧ parts = (sortKeys ms).map Prod.snd := by
  have hsorted (ms : List (JsString × JsString)) :
      (sortKeys (ms.map fun m => (m.1, (.ok m.2 : Except JsString JsString)))).map Prod.snd =
        ((sortKeys ms).map Prod.snd).map .ok := by
    rw [sortKeys_map, List.map_map, List.map_map]
    rfl
  rw [mapM_ok_iff]
  constructor
  · intro h
    have hall : ∀ r ∈ rs, ∃ t, r.2 = .ok t := by
      intro r hr
      have hmem : r.2 ∈ (sortKeys rs).map Prod.snd := List.mem_map_of_mem (mem_sortKeys.mpr hr)
      rw [h] at hmem
      obtain ⟨t, _, ht⟩ := List.mem_map.mp hmem
      exact ⟨t, ht.symm⟩
    have hrs : rs = (rs.map fun r => (r.1, r.2.toOption.getD [])).map fun m => (m.1, .ok m.2) := by
      rw [List.map_map]
      conv_lhs => rw [← List.map_id rs]
      apply List.map_congr_left
      intro r hr
      obtain ⟨t, ht⟩ := hall r hr
      obtain ⟨k, res⟩ := r
      cases ht
      rfl
    refine ⟨_, hrs, ?_⟩
    rw [hrs, hsorted] at h
    exact (List.map_injective_iff.mpr (fun _ _ heq => Except.ok.inj heq) h).symm
  · intro h
    obtain ⟨ms, rfl, rfl⟩ := h
    exact hsorted ms

theorem encodeAll_eq (es : List JsValue) : encodeAll es = es.map encode := by
  induction es with
  | nil => rfl
  | cons v es ih => rw [encodeAll, ih, List.map_cons]

theorem map_ok_iff {ε α β : Type} {r : Except ε α} {f : α → β} {b : β} :
    (r >>= fun a => pure (f a)) = .ok b ↔ ∃ a, r = .ok a ∧ b = f a := by
  cases r with
  | error e =>
    constructor
    · intro h
      cases h
    · intro h
      obtain ⟨a, h, _⟩ := h
      cases h
  | ok a =>
    constructor
    · intro h
      exact ⟨a, rfl, (Except.ok.inj h).symm⟩
    · intro h
      obtain ⟨a', ha, rfl⟩ := h
      rw [Except.ok.inj ha]
      rfl

/-- The text of an array, from the texts of its elements. -/
theorem arrayText_iff {rs : List (Except JsString JsString)} {t : JsString} :
    (rs.mapM id >>= fun parts => pure (0x5B :: joinComma parts ++ [0x5D])) = .ok t ↔
      ∃ parts, rs = parts.map .ok ∧ t = 0x5B :: joinComma parts ++ [0x5D] := by
  rw [map_ok_iff]
  apply exists_congr
  intro parts
  rw [mapM_ok_iff, List.map_id]

theorem encode_arr_iff {es : List JsValue} {t : JsString} : encode (.arr es) = .ok t ↔
    ∃ parts, es.map encode = parts.map .ok ∧ t = 0x5B :: joinComma parts ++ [0x5D] := by
  rw [encode, encodeAll_eq]
  exact arrayText_iff

theorem encodeFields_eq (fs : Fields) : encodeFields fs = fs.map fun f => (f.1,
    if isUndefined f.2 then
      .error (js "canonicalJson: undefined value at key '" ++ f.1 ++ js "' is not JSON-serializable")
    else (encode f.2).map fun t => memberText (f.1, t)) := by
  induction fs with
  | nil => rfl
  | cons f fs ih => rw [encodeFields, ih, List.map_cons]; rfl

theorem encode_undefined {v : JsValue} {t : JsString} (h : encode v = .ok t) : isUndefined v = false := by
  cases v with
  | undefined => cases h
  | _ => rfl

/-- What encoding a list of fields is made of, when a field has a text exactly when its
value has one. -/
theorem fieldTexts_iff {α : Type} {key : α → JsString} {enc field : α → Except JsString JsString}
    (hfield : ∀ a x, field a = .ok x ↔ ∃ e, enc a = .ok e ∧ x = memberText (key a, e))
    (l : List α) (ms' : List (JsString × JsString)) :
    l.map (fun a => (key a, field a)) = ms'.map (fun m => (m.1, .ok m.2)) ↔
      ∃ ms : List (JsString × JsString), ms' = ms.map (fun m => (m.1, memberText m)) ∧
        l.map (fun a => (key a, enc a)) = ms.map (fun m => (m.1, .ok m.2)) := by
  induction l generalizing ms' with
  | nil =>
    constructor
    · intro h
      obtain rfl := List.map_eq_nil_iff.mp h.symm
      exact ⟨[], rfl, rfl⟩
    · intro h
      obtain ⟨ms, rfl, h⟩ := h
      obtain rfl := List.map_eq_nil_iff.mp h.symm
      rfl
  | cons a l ih =>
    constructor
    · intro h
      cases ms' with
      | nil => cases h
      | cons m ms' =>
        obtain ⟨hhead, hrest⟩ := List.cons.inj h
        obtain ⟨hkey, hx⟩ := Prod.mk.inj hhead
        obtain ⟨ms, rfl, hms⟩ := (ih ms').mp hrest
        obtain ⟨e, he, hm⟩ := (hfield a m.2).mp hx
        refine ⟨(key a, e) :: ms, ?_, ?_⟩
        · rw [List.map_cons, ← hm, hkey]
        · rw [List.map_cons, List.map_cons, hms, he]
    · intro h
      obtain ⟨ms, rfl, h⟩ := h
      cases ms with
      | nil => cases h
      | cons m ms =>
        obtain ⟨hhead, hrest⟩ := List.cons.inj h
        obtain ⟨hkey, he⟩ := Prod.mk.inj hhead
        have hx := (hfield a (memberText (key a, m.2))).mpr ⟨m.2, he, rfl⟩
        rw [List.map_cons, List.map_cons, List.map_cons, hx, (ih _).mpr ⟨ms, rfl, hrest⟩, hkey]

/-- The text of an object, from the fields it is encoded from. -/
theorem objectText_iff {α : Type} {key : α → JsString} {enc field : α → Except JsString JsString}
    (hfield : ∀ a x, field a = .ok x ↔ ∃ e, enc a = .ok e ∧ x = memberText (key a, e))
    (l : List α) (t : JsString) :
    ((sortKeys (l.map fun a => (key a, field a))).mapM Prod.snd >>= fun parts =>
        pure (0x7B :: joinComma parts ++ [0x7D])) = .ok t ↔
      ∃ ms : List (JsString × JsString),
        l.map (fun a => (key a, enc a)) = ms.map (fun m => (m.1, .ok m.2)) ∧
          t = 0x7B :: joinComma ((sortKeys ms).map memberText) ++ [0x7D] := by
  have hparts (ms : List (JsString × JsString)) :
      (sortKeys (ms.map fun m => (m.1, memberText m))).map Prod.snd =
        (sortKeys ms).map memberText := by
    rw [sortKeys_map, List.map_map]
    rfl
  rw [map_ok_iff]
  constructor
  · intro h
    obtain ⟨parts, hcollect, rfl⟩ := h
    obtain ⟨ms', heq, rfl⟩ := collect_iff.mp hcollect
    obtain ⟨ms, rfl, hms⟩ := (fieldTexts_iff hfield l ms').mp heq
    exact ⟨ms, hms, by rw [hparts]⟩
  · intro h
    obtain ⟨ms, hms, rfl⟩ := h
    refine ⟨(sortKeys ms).map memberText, ?_, rfl⟩
    exact collect_iff.mpr ⟨_, (fieldTexts_iff hfield l _).mpr ⟨ms, rfl, hms⟩, (hparts ms).symm⟩

/-- A field has a text exactly when its value has one: `undefined` has none. -/
theorem encodeField_iff (f : JsString × JsValue) (x : JsString) :
    (if isUndefined f.2 then
        .error (js "canonicalJson: undefined value at key '" ++ f.1 ++
          js "' is not JSON-serializable")
      else (encode f.2).map fun t => memberText (f.1, t)) = .ok x ↔
      ∃ e, encode f.2 = .ok e ∧ x = memberText (f.1, e) := by
  split_ifs with hundefined
  · constructor
    · intro h
      cases h
    · intro h
      obtain ⟨e, he, _⟩ := h
      rw [encode_undefined he] at hundefined
      cases hundefined
  · exact map_ok_iff

theorem encode_obj_iff {fs : Fields} {t : JsString} : encode (.obj fs) = .ok t ↔
    ∃ ms : List (JsString × JsString),
      fs.map (fun f => (f.1, encode f.2)) = ms.map (fun m => (m.1, .ok m.2)) ∧
        t = 0x7B :: joinComma ((sortKeys ms).map memberText) ++ [0x7D] := by
  rw [encode, encodeFields_eq]
  exact objectText_iff encodeField_iff fs t

/-- An object has a text exactly when every one of its values has one. -/
theorem encode_obj_ok {fs : Fields} :
    (∃ t, encode (.obj fs) = .ok t) ↔ ∀ f ∈ fs, ∃ t, encode f.2 = .ok t := by
  constructor
  · rintro ⟨t, ht⟩ f hf
    obtain ⟨ms, hms, _⟩ := encode_obj_iff.mp ht
    have hmem : (f.1, encode f.2) ∈ ms.map fun m => (m.1, (.ok m.2 : Except JsString JsString)) :=
      hms ▸ List.mem_map_of_mem hf
    obtain ⟨m, _, hm⟩ := List.mem_map.mp hmem
    exact ⟨m.2, (Prod.mk.inj hm).2.symm⟩
  · intro h
    have hmembers : ∃ ms : List (JsString × JsString),
        fs.map (fun f => (f.1, encode f.2)) = ms.map fun m => (m.1, .ok m.2) := by
      induction fs with
      | nil => exact ⟨[], rfl⟩
      | cons f fs ih =>
        obtain ⟨hf, hfs⟩ := List.forall_mem_cons.mp h
        obtain ⟨t, ht⟩ := hf
        obtain ⟨ms, hms⟩ := ih hfs
        exact ⟨(f.1, t) :: ms, by rw [List.map_cons, List.map_cons, hms, ht]⟩
    obtain ⟨ms, hms⟩ := hmembers
    exact ⟨_, encode_obj_iff.mpr ⟨ms, hms, rfl⟩⟩

/-! ### Encodings are pieces -/

theorem encode_num {x : JsNumber} {t : JsString} (h : encode (.num x) = .ok t) :
    ∃ d, x = .fin d ∧ t = d.toText := by
  cases x with
  | fin d => exact ⟨d, rfl, (Except.ok.inj h).symm⟩
  | nan => cases h
  | inf s => cases h

mutual
theorem encode_piece : ∀ (v : JsValue) {t : JsString}, encode v = .ok t → Piece t ∧ t ≠ []
  | .null, _, h => Except.ok.inj h ▸ ⟨.ofAll (by decide), by decide⟩
  | .bool true, _, h => Except.ok.inj h ▸ ⟨.ofAll (by decide), by decide⟩
  | .bool false, _, h => Except.ok.inj h ▸ ⟨.ofAll (by decide), by decide⟩
  | .num x, _, h => by
    obtain ⟨d, rfl, rfl⟩ := encode_num h
    exact ⟨.number d, d.toText_ne_nil⟩
  | .str s, _, h => Except.ok.inj h ▸ ⟨.quote s, List.cons_ne_nil _ _⟩
  | .arr es, _, h => by
    obtain ⟨parts, heq, rfl⟩ := encode_arr_iff.mp h
    refine ⟨.array (.joinComma fun t ht => ?_), List.cons_ne_nil _ _⟩
    have hmem : (.ok t : Except JsString JsString) ∈ es.map encode := heq ▸ List.mem_map_of_mem ht
    obtain ⟨v, hv, hvt⟩ := List.mem_map.mp hmem
    exact (encode_piece_all es v hv hvt).1
  | .obj fs, _, h => by
    obtain ⟨ms, heq, rfl⟩ := encode_obj_iff.mp h
    refine ⟨.object (.joinComma fun t ht => ?_), List.cons_ne_nil _ _⟩
    obtain ⟨m, hm, rfl⟩ := List.mem_map.mp ht
    have hmem : (m.1, (.ok m.2 : Except JsString JsString)) ∈ fs.map fun f => (f.1, encode f.2) :=
      heq ▸ List.mem_map_of_mem (mem_sortKeys.mp hm)
    obtain ⟨f, hf, hft⟩ := List.mem_map.mp hmem
    exact .member (encode_piece_fields fs f hf (Prod.mk.inj hft).2).1
  | .undefined, _, h => (by cases h)
  | .bigint _, _, h => (by cases h)
  | .function, _, h => (by cases h)
  | .symbol, _, h => (by cases h)

theorem encode_piece_all : ∀ (es : List JsValue), ∀ v ∈ es, ∀ {t : JsString}, encode v = .ok t →
    Piece t ∧ t ≠ []
  | [], _, hv, _, _ => absurd hv List.not_mem_nil
  | w :: es, v, hv, _, h => by
    rcases List.mem_cons.mp hv with heq | hv
    · exact encode_piece w (heq ▸ h)
    · exact encode_piece_all es v hv h

theorem encode_piece_fields : ∀ (fs : Fields), ∀ f ∈ fs, ∀ {t : JsString}, encode f.2 = .ok t →
    Piece t ∧ t ≠ []
  | [], _, hf, _, _ => absurd hf List.not_mem_nil
  | (k, w) :: fs, f, hf, _, h => by
    rcases List.mem_cons.mp hf with heq | hf
    · rw [heq] at h
      exact encode_piece w h
    · exact encode_piece_fields fs f hf h
end

/-! ### Equal texts -/

/-- A value that is neither an array nor an object. -/
def JsAtom : JsValue → Prop
  | .arr _ => False
  | .obj _ => False
  | _ => True

theorem encode_atom {v : JsValue} {t : JsString} (hv : JsAtom v) (h : encode v = .ok t) :
    v.isJson = true ∧ t = jsonText v := by
  cases v with
  | null => exact ⟨rfl, (Except.ok.inj h).symm⟩
  | bool b => cases b <;> exact ⟨rfl, (Except.ok.inj h).symm⟩
  | num x =>
    obtain ⟨d, rfl, rfl⟩ := encode_num h
    exact ⟨rfl, rfl⟩
  | str s => exact ⟨rfl, (Except.ok.inj h).symm⟩
  | arr es => exact hv.elim
  | obj fs => exact hv.elim
  | undefined => cases h
  | bigint n => cases h
  | function => cases h
  | symbol => cases h

theorem canon_atom {v : JsValue} (hv : JsAtom v) : canon v = v.posZero := by
  cases v with
  | arr es => exact hv.elim
  | obj fs => exact hv.elim
  | _ => rfl

/-- The text of an atom starts with no bracket. -/
theorem atom_head {v : JsValue} (hv : JsAtom v) (hjson : v.isJson = true) (r : JsString) :
    jsonText v ≠ 0x5B :: r ∧ jsonText v ≠ 0x7B :: r := by
  have hne {c : CodeUnit} {s : JsString} (hb : c ≠ 0x5B) (hc : c ≠ 0x7B) (h : jsonText v = c :: s) :
      jsonText v ≠ 0x5B :: r ∧ jsonText v ≠ 0x7B :: r := by
    rw [h]
    exact ⟨fun heq => hb (List.cons.inj heq).1, fun heq => hc (List.cons.inj heq).1⟩
  cases v with
  | null => exact hne (by decide) (by decide) rfl
  | bool b => cases b <;> exact hne (by decide) (by decide) rfl
  | num x =>
    cases x with
    | fin d =>
      obtain ⟨c, s, hd⟩ := List.exists_cons_of_ne_nil d.toText_ne_nil
      have hf := numberUnit_facts c (d.toText_units c (by rw [hd]; exact List.mem_cons_self ..))
      exact hne hf.2.2.1 hf.2.1 hd
    | nan => cases hjson
    | inf s => cases hjson
  | str s => exact hne (by decide) (by decide) rfl
  | arr es => exact hv.elim
  | obj fs => exact hv.elim
  | undefined => cases hjson
  | bigint n => cases hjson
  | function => cases hjson
  | symbol => cases hjson

/-- An atom shares its text with atoms of its value only. -/
theorem encode_inj_atom {v w : JsValue} {t : JsString} (hv : encode v = .ok t)
    (hw : encode w = .ok t) (hatom : JsAtom v) : canon v = canon w := by
  obtain ⟨hjson, rfl⟩ := encode_atom hatom hv
  have hhead := atom_head hatom hjson
  have hsame (hatom' : JsAtom w) : canon v = canon w := by
    obtain ⟨hjson', htext⟩ := encode_atom hatom' hw
    have hparse := congrArg jsonParse htext
    rw [jsonParse_jsonText v hjson, jsonParse_jsonText w hjson'] at hparse
    rw [canon_atom hatom, canon_atom hatom']
    exact Option.some.inj hparse
  cases w with
  | arr es =>
    obtain ⟨parts, _, htext⟩ := encode_arr_iff.mp hw
    exact absurd htext (hhead _).1
  | obj fs =>
    obtain ⟨ms, _, htext⟩ := encode_obj_iff.mp hw
    exact absurd htext (hhead _).2
  | _ => exact hsame trivial

theorem mem_parts {es : List JsValue} {ps : List JsString} (h : es.map encode = ps.map .ok) :
    ∀ t ∈ ps, Piece t ∧ t ≠ [] := by
  intro t ht
  have hmem : (.ok t : Except JsString JsString) ∈ es.map encode := h ▸ List.mem_map_of_mem ht
  obtain ⟨v, _, hvt⟩ := List.mem_map.mp hmem
  exact encode_piece v hvt

theorem parts_eq {es es' : List JsValue} {ps ps' : List JsString} (h : es.map encode = ps.map .ok)
    (h' : es'.map encode = ps'.map .ok)
    (htext : joinComma ps ++ [0x5D] = joinComma ps' ++ [0x5D]) : ps = ps' := by
  refine joinComma_inj (fun t ht => (mem_parts h t ht).1) (fun t ht => (mem_parts h' t ht).1)
    (Or.inl ⟨?_, ?_⟩) (Or.inl rfl) htext
  · exact fun hnil => (mem_parts h [] hnil).2 rfl
  · exact fun hnil => (mem_parts h' [] hnil).2 rfl

theorem members_eq {ms ms' : List (JsString × JsString)} (h : ∀ m ∈ ms, Piece m.2)
    (h' : ∀ m ∈ ms', Piece m.2)
    (htext : joinComma (ms.map memberText) ++ [0x7D] = joinComma (ms'.map memberText) ++ [0x7D]) :
    ms = ms' := by
  have hpiece {ms : List (JsString × JsString)} (h : ∀ m ∈ ms, Piece m.2) :
      ∀ t ∈ ms.map memberText, Piece t ∧ t ≠ [] := by
    intro t ht
    obtain ⟨m, hm, rfl⟩ := List.mem_map.mp ht
    exact ⟨.member (h m hm), memberText_ne_nil m⟩
  have htexts : ms.map memberText = ms'.map memberText := by
    refine joinComma_inj (fun t ht => (hpiece h t ht).1) (fun t ht => (hpiece h' t ht).1)
      (Or.inl ⟨?_, ?_⟩) (Or.inr rfl) htext
    · exact fun hnil => (hpiece h [] hnil).2 rfl
    · exact fun hnil => (hpiece h' [] hnil).2 rfl
  exact List.map_injective_iff.mpr (fun _ _ heq => memberText_inj heq) htexts

/-- The members of an encoded object, in the order of their keys. -/
theorem sorted_members {fs : Fields} {ms : List (JsString × JsString)}
    (h : fs.map (fun f => (f.1, encode f.2)) = ms.map (fun m => (m.1, .ok m.2))) :
    (sortKeys fs).map (fun f => (f.1, encode f.2)) =
        (sortKeys ms).map (fun m => (m.1, .ok m.2)) ∧ ∀ m ∈ sortKeys ms, Piece m.2 := by
  constructor
  · rw [← sortKeys_map, ← sortKeys_map, h]
  · intro m hm
    have hmem : (m.1, (.ok m.2 : Except JsString JsString)) ∈ fs.map fun f => (f.1, encode f.2) :=
      h ▸ List.mem_map_of_mem (mem_sortKeys.mp hm)
    obtain ⟨f, _, hft⟩ := List.mem_map.mp hmem
    exact (encode_piece f.2 (Prod.mk.inj hft).2).1

theorem map_canon_eq {l l' : Fields} {ms : List (JsString × JsString)}
    (hinj : ∀ f ∈ l, ∀ {w t}, encode f.2 = .ok t → encode w = .ok t → canon f.2 = canon w)
    (h : l.map (fun f => (f.1, encode f.2)) = ms.map (fun m => (m.1, .ok m.2)))
    (h' : l'.map (fun f => (f.1, encode f.2)) = ms.map (fun m => (m.1, .ok m.2))) :
    l.map (fun f => (f.1, canon f.2)) = l'.map (fun f => (f.1, canon f.2)) := by
  induction l generalizing l' ms with
  | nil =>
    obtain rfl := List.map_eq_nil_iff.mp h.symm
    obtain rfl := List.map_eq_nil_iff.mp h'
    rfl
  | cons f l ih =>
    cases ms with
    | nil => cases h
    | cons m ms =>
      cases l' with
      | nil => cases h'
      | cons f' l' =>
        obtain ⟨hf, hl⟩ := List.cons.inj h
        obtain ⟨hf', hl'⟩ := List.cons.inj h'
        obtain ⟨hk, he⟩ := Prod.mk.inj hf
        obtain ⟨hk', he'⟩ := Prod.mk.inj hf'
        have hcanon := hinj f (List.mem_cons_self ..) he he'
        rw [List.map_cons, List.map_cons, hk, hk', hcanon,
          ih (fun g hg => hinj g (List.mem_cons_of_mem _ hg)) hl hl']

theorem map_canon_eq_all {l l' : List JsValue} {ps : List JsString}
    (hinj : ∀ v ∈ l, ∀ {w t}, encode v = .ok t → encode w = .ok t → canon v = canon w)
    (h : l.map encode = ps.map .ok) (h' : l'.map encode = ps.map .ok) :
    l.map canon = l'.map canon := by
  induction l generalizing l' ps with
  | nil =>
    obtain rfl := List.map_eq_nil_iff.mp h.symm
    obtain rfl := List.map_eq_nil_iff.mp h'
    rfl
  | cons v l ih =>
    cases ps with
    | nil => cases h
    | cons p ps =>
      cases l' with
      | nil => cases h'
      | cons w l' =>
        obtain ⟨hv, hl⟩ := List.cons.inj h
        obtain ⟨hw, hl'⟩ := List.cons.inj h'
        rw [List.map_cons, List.map_cons, hinj v (List.mem_cons_self ..) hv hw,
          ih (fun u hu => hinj u (List.mem_cons_of_mem _ hu)) hl hl']

mutual
/-- Values with one canonical text are equal up to the order of keys and the sign of zero. -/
theorem encode_inj : ∀ (v : JsValue) {w : JsValue} {t : JsString}, encode v = .ok t →
    encode w = .ok t → canon v = canon w
  | .arr es, w, _, hv, hw => by
    obtain ⟨ps, hps, rfl⟩ := encode_arr_iff.mp hv
    cases w with
    | arr es' =>
      obtain ⟨ps', hps', htext⟩ := encode_arr_iff.mp hw
      obtain rfl := parts_eq hps hps' (List.cons.inj htext).2
      rw [canon, canon, canonAll_eq, canonAll_eq,
        map_canon_eq_all (encode_inj_all es) hps hps']
    | obj fs =>
      obtain ⟨ms, _, htext⟩ := encode_obj_iff.mp hw
      exact absurd (List.cons.inj htext).1 (by decide)
    | _ => exact (encode_inj_atom hw hv trivial).symm
  | .obj fs, w, _, hv, hw => by
    obtain ⟨ms, hms, rfl⟩ := encode_obj_iff.mp hv
    cases w with
    | obj fs' =>
      obtain ⟨ms', hms', htext⟩ := encode_obj_iff.mp hw
      obtain ⟨hsorted, hpiece⟩ := sorted_members hms
      obtain ⟨hsorted', hpiece'⟩ := sorted_members hms'
      rw [← members_eq hpiece hpiece' (List.cons.inj htext).2] at hsorted'
      have hinj : ∀ f ∈ sortKeys fs, ∀ {w t}, encode f.2 = .ok t → encode w = .ok t →
          canon f.2 = canon w := fun f hf => encode_inj_fields fs f (mem_sortKeys.mp hf)
      rw [canon, canon, canonFields_eq, canonFields_eq, sortKeys_map, sortKeys_map,
        map_canon_eq hinj hsorted hsorted']
    | arr es =>
      obtain ⟨ps, _, htext⟩ := encode_arr_iff.mp hw
      exact absurd (List.cons.inj htext).1 (by decide)
    | _ => exact (encode_inj_atom hw hv trivial).symm
  | .null, _, _, hv, hw => encode_inj_atom hv hw trivial
  | .bool _, _, _, hv, hw => encode_inj_atom hv hw trivial
  | .num _, _, _, hv, hw => encode_inj_atom hv hw trivial
  | .str _, _, _, hv, hw => encode_inj_atom hv hw trivial
  | .undefined, _, _, hv, _ => (by cases hv)
  | .bigint _, _, _, hv, _ => (by cases hv)
  | .function, _, _, hv, _ => (by cases hv)
  | .symbol, _, _, hv, _ => (by cases hv)

theorem encode_inj_all : ∀ (es : List JsValue), ∀ v ∈ es, ∀ {w : JsValue} {t : JsString},
    encode v = .ok t → encode w = .ok t → canon v = canon w
  | [], _, hv, _, _, _, _ => absurd hv List.not_mem_nil
  | u :: es, v, hv, _, _, h, hw => by
    rcases List.mem_cons.mp hv with heq | hv
    · rw [heq] at h ⊢
      exact encode_inj u h hw
    · exact encode_inj_all es v hv h hw

theorem encode_inj_fields : ∀ (fs : Fields), ∀ f ∈ fs, ∀ {w : JsValue} {t : JsString},
    encode f.2 = .ok t → encode w = .ok t → canon f.2 = canon w
  | [], _, hf, _, _, _, _ => absurd hf List.not_mem_nil
  | (k, u) :: fs, f, hf, _, _, h, hw => by
    rcases List.mem_cons.mp hf with heq | hf
    · rw [heq] at h ⊢
      exact encode_inj u h hw
    · exact encode_inj_fields fs f hf h hw
end

/-! ### Properties of values with one canonical text -/

theorem getOwn_of_mem {k : JsString} {v : JsValue} {fs : Fields} (hnodup : (fs.map Prod.fst).Nodup)
    (h : (k, v) ∈ fs) : getOwn k fs = v := by
  induction fs with
  | nil => exact absurd h List.not_mem_nil
  | cons f fs ih =>
    obtain ⟨k', v'⟩ := f
    obtain ⟨hhead, htail⟩ := List.nodup_cons.mp hnodup
    rw [getOwn]
    rcases List.mem_cons.mp h with heq | h
    · obtain ⟨rfl, rfl⟩ := Prod.mk.inj heq
      rw [if_pos rfl]
    · have hmem : k ∈ fs.map Prod.fst := List.mem_map.mpr ⟨_, h, rfl⟩
      have hne : k' ≠ k := fun heq => hhead (heq ▸ hmem)
      rw [if_neg hne]
      exact ih htail h

theorem getOwn_canonFields (k : JsString) (fs : Fields) :
    getOwn k (canonFields fs) = canon (getOwn k fs) := by
  induction fs with
  | nil => rfl
  | cons f fs ih =>
    rw [canonFields, getOwn, getOwn]
    split_ifs
    · rfl
    · exact ih

theorem getOwn_sortKeys (k : JsString) {fs : Fields} (hnodup : (fs.map Prod.fst).Nodup) :
    getOwn k (sortKeys fs) = getOwn k fs := by
  have hperm : (sortKeys fs).Perm fs := List.mergeSort_perm _ _
  have hsorted : ((sortKeys fs).map Prod.fst).Nodup := (hperm.map Prod.fst).nodup_iff.mpr hnodup
  by_cases hk : ∃ v, (k, v) ∈ fs
  · obtain ⟨v, hv⟩ := hk
    rw [getOwn_of_mem hnodup hv, getOwn_of_mem hsorted (hperm.mem_iff.mpr hv)]
  · have hnone {gs : Fields} (hgs : ∀ v, (k, v) ∉ gs) : getOwn k gs = .undefined := by
      induction gs with
      | nil => rfl
      | cons g gs ih =>
        have hne : g.1 ≠ k := by
          rintro rfl
          exact hgs g.2 (List.mem_cons_self ..)
        rw [getOwn, if_neg hne]
        exact ih fun v hv => hgs v (List.mem_cons_of_mem _ hv)
    rw [hnone fun v hv => hk ⟨v, hv⟩, hnone fun v hv => hk ⟨v, hperm.mem_iff.mp hv⟩]

/-- Objects with one canonical form have properties with one canonical form. -/
theorem canon_getOwn {fs gs : Fields} (hfs : (fs.map Prod.fst).Nodup) (hgs : (gs.map Prod.fst).Nodup)
    (h : canon (.obj fs) = canon (.obj gs)) (k : JsString) :
    canon (getOwn k fs) = canon (getOwn k gs) := by
  have hkeys (l : Fields) : (canonFields l).map Prod.fst = l.map Prod.fst := by
    rw [canonFields_eq, List.map_map]
    rfl
  have hsorted := JsValue.obj.inj h
  rw [← getOwn_canonFields, ← getOwn_canonFields, ← getOwn_sortKeys k (hkeys fs ▸ hfs), hsorted,
    getOwn_sortKeys k (hkeys gs ▸ hgs)]

theorem canon_str {v : JsValue} {s : JsString} (h : canon v = .str s) : v = .str s := by
  cases v with
  | str t => exact h
  | num x => cases x <;> cases h
  | _ => cases h

end Homelab
