import Homelab.JsonParse

/-! The canonical JSON encoder that feeds the audit log's HMAC. -/
namespace Homelab
open Js

/-- `Array.prototype.sort` on keys compares UTF-16 code units. -/
def sortKeys {α : Type} (fs : List (JsString × α)) : List (JsString × α) :=
  fs.mergeSort fun a b => decide (a.1 ≤ b.1)

def isUndefined : JsValue → Bool
  | .undefined => true
  | _ => false

mutual
/-- `encode` of `canonical-json.ts`; `error` is the message of its `TypeError`. -/
def encode : JsValue → Except JsString JsString
  | .null => .ok (js "null")
  | .bool true => .ok (js "true")
  | .bool false => .ok (js "false")
  | .num x =>
    if x.isFinite then .ok x.toText
    else .error (js "canonicalJson: non-finite number is not JSON-serializable: " ++ x.toText)
  | .str s => .ok (quote s)
  | .bigint _ => .error (js "canonicalJson: BigInt is not JSON-serializable")
  | .undefined => .error (js "canonicalJson: undefined is not JSON-serializable")
  | .function => .error (js "canonicalJson: function is not JSON-serializable")
  | .symbol => .error (js "canonicalJson: symbol is not JSON-serializable")
  | .arr es => do
    let parts ← (encodeAll es).mapM id
    return 0x5B :: joinComma parts ++ [0x5D]
  | .obj fs => do
    -- every field is encoded under its key, so the first failing key in sorted order throws
    let parts ← (sortKeys (encodeFields fs)).mapM Prod.snd
    return 0x7B :: joinComma parts ++ [0x7D]

def encodeAll : List JsValue → List (Except JsString JsString)
  | [] => []
  | v :: vs => encode v :: encodeAll vs

def encodeFields : Fields → List (JsString × Except JsString JsString)
  | [] => []
  | (k, v) :: fs =>
    (k, if isUndefined v then
        .error (js "canonicalJson: undefined value at key '" ++ k ++ js "' is not JSON-serializable")
      else (encode v).map fun t => quote k ++ 0x3A :: t) :: encodeFields fs
end

def canonicalJson (value : JsValue) : Except JsString JsString := encode value

theorem Decimal.toText_posZero (d : Decimal) : d.posZero.toText = d.toText := by
  unfold Decimal.posZero
  split_ifs with h
  · simp only [Decimal.toText, h, ↓reduceIte]
  · rfl

theorem isUndefined_posZero (v : JsValue) : isUndefined v.posZero = isUndefined v := by
  cases v with
  | num x => cases x <;> rfl
  | _ => rfl

mutual
/-- The encoder does not see what `JSON.stringify` and `JSON.parse` do to a value. -/
theorem encode_posZero : ∀ v : JsValue, encode v.posZero = encode v
  | .null => rfl
  | .bool _ => rfl
  | .num (.fin d) => by
    simp only [JsValue.posZero, encode, JsNumber.isFinite, JsNumber.toText, Decimal.toText_posZero]
  | .num .nan => rfl
  | .num (.inf _) => rfl
  | .str _ => rfl
  | .bigint _ => rfl
  | .undefined => rfl
  | .function => rfl
  | .symbol => rfl
  | .arr es => by simp only [JsValue.posZero, encode, encodeAll_posZero es]
  | .obj fs => by simp only [JsValue.posZero, encode, encodeFields_posZero fs]

theorem encodeAll_posZero : ∀ es : List JsValue, encodeAll (posZeroAll es) = encodeAll es
  | [] => rfl
  | v :: vs => by simp only [posZeroAll, encodeAll, encode_posZero v, encodeAll_posZero vs]

theorem encodeFields_posZero : ∀ fs : Fields, encodeFields (posZeroFields fs) = encodeFields fs
  | [] => rfl
  | (k, v) :: fs => by
    simp only [posZeroFields, encodeFields, isUndefined_posZero, encode_posZero v,
      encodeFields_posZero fs]
end

/-- A list of successes collects to a success. -/
theorem mapM_ok {α β ε : Type} (f : α → Except ε β) (l : List α) (h : ∀ a ∈ l, ∃ b, f a = .ok b) :
    ∃ bs, l.mapM f = .ok bs := by
  induction l with
  | nil => exact ⟨[], rfl⟩
  | cons a l ih =>
    obtain ⟨b, hb⟩ := h a (List.mem_cons_self ..)
    obtain ⟨bs, hbs⟩ := ih fun x hx => h x (List.mem_cons_of_mem _ hx)
    refine ⟨b :: bs, ?_⟩
    rw [List.mapM_cons, hb, hbs]
    rfl

mutual
/-- The encoder accepts every JSON value. -/
theorem encode_of_isJson : ∀ v : JsValue, v.isJson = true → ∃ t, encode v = .ok t
  | .null, _ => ⟨_, rfl⟩
  | .bool true, _ => ⟨_, rfl⟩
  | .bool false, _ => ⟨_, rfl⟩
  | .num x, h => by
    simp only [JsValue.isJson] at h
    exact ⟨x.toText, by simp only [encode, h, ↓reduceIte]⟩
  | .str _, _ => ⟨_, rfl⟩
  | .arr es, h => by
    obtain ⟨parts, hp⟩ := mapM_ok id _ (encodeAll_of_allJson es h)
    exact ⟨_, by simp only [encode, hp]; rfl⟩
  | .obj fs, h => by
    simp only [JsValue.isJson, Bool.and_eq_true] at h
    have hfields := encodeFields_of_fieldsJson fs h.2
    obtain ⟨parts, hp⟩ := mapM_ok Prod.snd (sortKeys (encodeFields fs)) fun a ha =>
      hfields a (List.mem_mergeSort.mp ha)
    exact ⟨_, by simp only [encode, hp]; rfl⟩

theorem encodeAll_of_allJson : ∀ es : List JsValue, allJson es = true →
    ∀ r ∈ encodeAll es, ∃ t, r = .ok t
  | [], _, _, hr => absurd hr List.not_mem_nil
  | v :: vs, h, r, hr => by
    simp only [allJson, Bool.and_eq_true] at h
    rcases List.mem_cons.mp hr with rfl | hr
    · exact encode_of_isJson v h.1
    · exact encodeAll_of_allJson vs h.2 r hr

theorem encodeFields_of_fieldsJson : ∀ fs : Fields, fieldsJson fs = true →
    ∀ p ∈ encodeFields fs, ∃ t, p.2 = .ok t
  | [], _, _, hp => absurd hp List.not_mem_nil
  | (k, v) :: fs, h, p, hp => by
    simp only [fieldsJson, Bool.and_eq_true] at h
    rcases List.mem_cons.mp hp with rfl | hp
    · have hu : isUndefined v = false := by
        cases v <;> first | rfl | exact absurd h.1 (by decide)
      obtain ⟨t, ht⟩ := encode_of_isJson v h.1
      exact ⟨_, by simp only [hu, ht, Bool.false_eq_true, ↓reduceIte]; rfl⟩
    · exact encodeFields_of_fieldsJson fs h.2 p hp
end

theorem encodeFields_keys (fs : Fields) : (encodeFields fs).map Prod.fst = fs.map Prod.fst := by
  induction fs with
  | nil => rfl
  | cons f fs ih => simp only [encodeFields, List.map_cons, ih]

/-- Fields that are sorted already are encoded in their order. -/
theorem sortKeys_encodeFields {fs : Fields} (h : (fs.map Prod.fst).Pairwise (· ≤ ·)) :
    sortKeys (encodeFields fs) = encodeFields fs := by
  rw [← encodeFields_keys, List.pairwise_map] at h
  exact List.mergeSort_of_pairwise (h.imp fun hle => decide_eq_true hle)

end Homelab
