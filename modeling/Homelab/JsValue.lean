import Homelab.JsText

/-! JavaScript values as plain data, the order of own properties and
`JSON.stringify`. Functions and symbols are opaque: no code here calls one. -/
namespace Js

inductive JsValue
  | undefined
  | null
  | bool (b : Bool)
  | num (x : JsNumber)
  | str (s : JsString)
  | bigint (n : ℤ)
  | function
  | symbol
  | arr (elems : List JsValue)
  | obj (fields : List (JsString × JsValue))

abbrev Fields := List (JsString × JsValue)

/-! ### Own properties -/

/-- The array index a property key spells, if it is one. -/
def arrayIndex (k : JsString) : Option ℕ :=
  let n := ofDigitList (spanDigits k).1
  if k ≠ [] ∧ (spanDigits k).2 = [] ∧ (k = js "0" ∨ k.head? ≠ some 0x30) ∧ n+1 < 2^32 then some n
  else none

/-- Array indices come first, in ascending order; other keys in creation order. -/
def keyBefore (k k' : JsString) : Bool :=
  match arrayIndex k, arrayIndex k' with
  | some i, some j => i < j
  | some _, none => true
  | none, _ => false

/-- `CreateDataProperty` on a plain object. -/
def setOwn (k : JsString) (v : JsValue) : Fields → Fields
  | [] => [(k, v)]
  | (k', v') :: rest =>
    if k' = k then (k, v) :: rest
    else if keyBefore k k' then (k, v) :: (k', v') :: rest
    else (k', v') :: setOwn k v rest

/-- The object built by creating the properties one after the other. -/
def ofEntries (entries : Fields) : Fields := entries.foldl (fun fs e => setOwn e.1 e.2 fs) []

/-- The keys a plain object can have, in the order it lists them. -/
def OwnOrder (keys : List JsString) : Prop :=
  keys.Pairwise fun a b => a ≠ b ∧ keyBefore b a = false

instance (keys : List JsString) : Decidable (OwnOrder keys) :=
  inferInstanceAs (Decidable (keys.Pairwise _))

/-- `obj[k]` on own properties. -/
def getOwn (k : JsString) : Fields → JsValue
  | [] => .undefined
  | (k', v) :: rest => if k' = k then v else getOwn k rest

/-- `value[k]`, where a property of `null` or `undefined` throws. -/
def JsValue.get? (k : JsString) : JsValue → Option JsValue
  | .undefined => none
  | .null => none
  | .obj fs => some (getOwn k fs)
  | _ => some .undefined

theorem setOwn_last (k : JsString) (v : JsValue) (fs : Fields)
    (h : ∀ f ∈ fs, f.1 ≠ k ∧ keyBefore k f.1 = false) : setOwn k v fs = fs ++ [(k, v)] := by
  induction fs with
  | nil => rfl
  | cons f fs ih =>
    obtain ⟨hne, hkb⟩ := h f (List.mem_cons_self ..)
    have ih := ih (fun g hg => h g (List.mem_cons_of_mem _ hg))
    obtain ⟨k', v'⟩ := f
    simp only [setOwn, show ¬ k' = k from hne, show keyBefore k k' = false from hkb,
      Bool.false_eq_true, ↓reduceIte, ih, List.cons_append]

/-- Creating the properties of a plain object in its own order rebuilds it. -/
theorem ofEntries_ownOrder (fs : Fields) (h : OwnOrder (fs.map Prod.fst)) : ofEntries fs = fs := by
  have key (done todo : Fields) (ho : OwnOrder ((done ++ todo).map Prod.fst)) :
      todo.foldl (fun fs e => setOwn e.1 e.2 fs) done = done ++ todo := by
    induction todo generalizing done with
    | nil => simp
    | cons e todo ih =>
      have hlast : setOwn e.1 e.2 done = done ++ [e] := by
        apply setOwn_last
        intro f hf
        rw [List.map_append] at ho
        exact (List.pairwise_append.mp ho).2.2 f.1 (List.mem_map_of_mem hf) e.1
          (List.mem_map_of_mem (List.mem_cons_self ..))
      rw [List.foldl_cons, hlast, ih (done ++ [e]) (by simpa using ho)]
      simp
  exact key [] fs h

/-! ### JSON values -/

mutual
/-- Values that JSON text can name: finite numbers, no functions, no holes, and
objects as `JSON.parse` can build them. -/
def JsValue.isJson : JsValue → Bool
  | .null => true
  | .bool _ => true
  | .num x => x.isFinite
  | .str _ => true
  | .arr es => allJson es
  | .obj fs => decide (OwnOrder (fs.map Prod.fst)) && fieldsJson fs
  | .undefined => false
  | .bigint _ => false
  | .function => false
  | .symbol => false

def allJson : List JsValue → Bool
  | [] => true
  | v :: vs => v.isJson && allJson vs

def fieldsJson : Fields → Bool
  | [] => true
  | (_, v) :: fs => v.isJson && fieldsJson fs
end

mutual
/-- The value that `JSON.parse` reads back: `-0` becomes `0`. -/
def JsValue.posZero : JsValue → JsValue
  | .num (.fin d) => .num (.fin d.posZero)
  | .arr es => .arr (posZeroAll es)
  | .obj fs => .obj (posZeroFields fs)
  | .num .nan => .num .nan
  | .num (.inf s) => .num (.inf s)
  | .undefined => .undefined
  | .null => .null
  | .bool b => .bool b
  | .str s => .str s
  | .bigint n => .bigint n
  | .function => .function
  | .symbol => .symbol

def posZeroAll : List JsValue → List JsValue
  | [] => []
  | v :: vs => v.posZero :: posZeroAll vs

def posZeroFields : Fields → Fields
  | [] => []
  | (k, v) :: fs => (k, v.posZero) :: posZeroFields fs
end

theorem posZeroFields_keys (fs : Fields) : (posZeroFields fs).map Prod.fst = fs.map Prod.fst := by
  induction fs with
  | nil => rfl
  | cons f fs ih => simp only [posZeroFields, List.map_cons, ih]

theorem getOwn_posZeroFields (k : JsString) (fs : Fields) :
    getOwn k (posZeroFields fs) = (getOwn k fs).posZero := by
  induction fs with
  | nil => rfl
  | cons f fs ih =>
    simp only [posZeroFields, getOwn]
    split_ifs
    · rfl
    · exact ih

theorem posZero_ofNat (n : ℕ) : (JsValue.num (.ofNat n)).posZero = .num (.ofNat n) := by
  have hneg := (Decimal.ofNat_spec n).1
  simp only [JsNumber.ofNat, JsValue.posZero, JsValue.num.injEq, JsNumber.fin.injEq]
  unfold Decimal.posZero
  split_ifs with h
  · have hexp := (Decimal.ofNat n).normal.resolve_left (by omega)
    exact Decimal.ext hneg.symm h.symm hexp.2.symm
  · rfl

/-! ### `JSON.stringify` -/

def hexUnit (d : ℕ) : CodeUnit := if d < 10 then (0x30+d).toUInt16 else (0x57+d).toUInt16

/-- `\uXXXX` in lower case. -/
def unicodeEscape (c : CodeUnit) : JsString :=
  [0x5C, 0x75, hexUnit (c.toNat/0x1000), hexUnit (c.toNat/0x100%0x10),
    hexUnit (c.toNat/0x10%0x10), hexUnit (c.toNat%0x10)]

/-- A code unit of a string literal; a surrogate that reaches here is lone. -/
def quoteUnit (c : CodeUnit) : JsString :=
  if c = 0x08 then [0x5C, 0x62]
  else if c = 0x09 then [0x5C, 0x74]
  else if c = 0x0A then [0x5C, 0x6E]
  else if c = 0x0C then [0x5C, 0x66]
  else if c = 0x0D then [0x5C, 0x72]
  else if c = 0x22 then [0x5C, 0x22]
  else if c = 0x5C then [0x5C, 0x5C]
  else if c.toNat < 0x20 || isHigh c || isLow c then unicodeEscape c
  else [c]

def quoteBody : JsString → JsString
  | [] => []
  | [c] => quoteUnit c
  | c :: d :: rest =>
    if isHigh c && isLow d then c :: d :: quoteBody rest
    else quoteUnit c ++ quoteBody (d :: rest)

/-- `QuoteJSONString` -/
def quote (s : JsString) : JsString := 0x22 :: quoteBody s ++ [0x22]

/-- `texts.join(',')` -/
def joinComma : List JsString → JsString
  | [] => []
  | [t] => t
  | t :: u :: ts => t ++ 0x2C :: joinComma (u :: ts)

theorem length_le_quoteBody (s : JsString) : s.length ≤ (quoteBody s).length := by
  have hunit (c : CodeUnit) : 1 ≤ (quoteUnit c).length := by
    unfold quoteUnit
    split_ifs <;> simp [unicodeEscape]
  induction s using quoteBody.induct with
  | case1 => exact le_rfl
  | case2 c => exact hunit c
  | case3 c d s hp ih =>
    simp only [quoteBody, hp, ↓reduceIte, List.length_cons]
    omega
  | case4 c d s hp ih =>
    have hc := hunit c
    simp only [quoteBody, hp, Bool.false_eq_true, ↓reduceIte, List.length_append]
    rw [List.length_cons]
    omega

theorem length_le_joinComma {t : JsString} {ts : List JsString} (h : t ∈ ts) :
    t.length ≤ (joinComma ts).length := by
  induction ts using joinComma.induct with
  | case1 => exact absurd h List.not_mem_nil
  | case2 u => rw [List.mem_singleton.mp h, joinComma]
  | case3 u v ts ih =>
    rw [joinComma, List.length_append, List.length_cons]
    rcases List.mem_cons.mp h with rfl | h
    · omega
    · have := ih h
      omega

/-! ### `String(v)` -/

mutual
/-- `String(v)`; functions and symbols do not occur where the code coerces a value. -/
def JsValue.coerce : JsValue → JsString
  | .undefined => js "undefined"
  | .null => js "null"
  | .bool true => js "true"
  | .bool false => js "false"
  | .num x => x.toText
  | .str s => s
  | .bigint n => (if n < 0 then js "-" else []) ++ (JsNumber.ofNat n.natAbs).toText
  | .function => js "function"
  | .symbol => js "Symbol()"
  | .arr es => joinComma (coerceElems es)
  | .obj _ => js "[object Object]"

/-- `Array.prototype.join` prints `null` and `undefined` as nothing. -/
def coerceElems : List JsValue → List JsString
  | [] => []
  | .null :: vs => [] :: coerceElems vs
  | .undefined :: vs => [] :: coerceElems vs
  | v :: vs => v.coerce :: coerceElems vs
end

/-- `typeof v` -/
def JsValue.typeof : JsValue → JsString
  | .undefined => js "undefined"
  | .null => js "object"
  | .bool _ => js "boolean"
  | .num _ => js "number"
  | .str _ => js "string"
  | .bigint _ => js "bigint"
  | .function => js "function"
  | .symbol => js "symbol"
  | .arr _ => js "object"
  | .obj _ => js "object"

/-- `value[k]` where `value` may be `null`. -/
def readProperty (value : JsValue) (k : JsString) : Except JsString JsValue :=
  match value.get? k with
  | some v => .ok v
  | none => .error (js "Cannot read properties of " ++ value.coerce ++ js " (reading '" ++ k ++ js "')")

/-- `value[k]` for a value that is not `null`. -/
def property (k : JsString) (value : JsValue) : JsValue := (value.get? k).getD .undefined

/-- Properties that `JSON.stringify` leaves out. -/
def JsValue.isOmitted : JsValue → Bool
  | .undefined => true
  | .function => true
  | .symbol => true
  | _ => false

mutual
/-- The text of a value without a `BigInt` in it. -/
def jsonText : JsValue → JsString
  | .undefined => js "null"
  | .null => js "null"
  | .bool true => js "true"
  | .bool false => js "false"
  | .num (.fin d) => d.toText
  | .num .nan => js "null"
  | .num (.inf _) => js "null"
  | .str s => quote s
  | .bigint _ => []
  | .function => js "null"
  | .symbol => js "null"
  | .arr es => 0x5B :: joinComma (elemTexts es) ++ [0x5D]
  | .obj fs => 0x7B :: joinComma (fieldTexts fs) ++ [0x7D]

def elemTexts : List JsValue → List JsString
  | [] => []
  | v :: vs => jsonText v :: elemTexts vs

def fieldTexts : Fields → List JsString
  | [] => []
  | (k, v) :: fs =>
    if v.isOmitted then fieldTexts fs else (quote k ++ 0x3A :: jsonText v) :: fieldTexts fs
end

theorem length_le_jsonText_str (s : JsString) : s.length ≤ (jsonText (.str s)).length := by
  have hbody := length_le_quoteBody s
  simp only [jsonText, quote, List.length_append, List.length_cons]
  omega

/-- The text of a field that is not left out is inside the text of its object. -/
theorem length_le_jsonText_obj {k : JsString} {v : JsValue} {fs : Fields} (h : (k, v) ∈ fs)
    (hv : v.isOmitted = false) : (jsonText v).length ≤ (jsonText (.obj fs)).length := by
  have hmem : quote k ++ 0x3A :: jsonText v ∈ fieldTexts fs := by
    induction fs with
    | nil => exact absurd h List.not_mem_nil
    | cons f fs ih =>
      obtain ⟨k', v'⟩ := f
      rcases List.mem_cons.mp h with heq | h
      · obtain ⟨rfl, rfl⟩ := Prod.mk.inj heq
        simp only [fieldTexts, hv, Bool.false_eq_true, ↓reduceIte]
        exact List.mem_cons_self ..
      · simp only [fieldTexts]
        split_ifs
        · exact ih h
        · exact List.mem_cons_of_mem _ (ih h)
  have hjoin := length_le_joinComma hmem
  simp only [List.length_append, List.length_cons, jsonText] at hjoin ⊢
  omega

mutual
def JsValue.hasBigint : JsValue → Bool
  | .bigint _ => true
  | .arr es => anyBigint es
  | .obj fs => fieldsBigint fs
  | _ => false

def anyBigint : List JsValue → Bool
  | [] => false
  | v :: vs => v.hasBigint || anyBigint vs

def fieldsBigint : Fields → Bool
  | [] => false
  | (_, v) :: fs => v.hasBigint || fieldsBigint fs
end

/-- `JSON.stringify(v)`: `none` for a value without JSON text; `error` is its `TypeError`. -/
def stringify (v : JsValue) : Except JsString (Option JsString) :=
  if v.hasBigint then .error (js "Do not know how to serialize a BigInt")
  else if v.isOmitted then .ok none
  else .ok (some (jsonText v))

mutual
theorem hasBigint_of_isJson : ∀ v : JsValue, v.isJson = true → v.hasBigint = false
  | .null, _ => rfl
  | .bool _, _ => rfl
  | .num _, _ => rfl
  | .str _, _ => rfl
  | .arr es, h => anyBigint_of_allJson es h
  | .obj fs, h => by
    simp only [JsValue.isJson, Bool.and_eq_true] at h
    exact fieldsBigint_of_fieldsJson fs h.2

theorem anyBigint_of_allJson : ∀ es : List JsValue, allJson es = true → anyBigint es = false
  | [], _ => rfl
  | v :: vs, h => by
    simp only [allJson, Bool.and_eq_true] at h
    simp only [anyBigint, hasBigint_of_isJson v h.1, anyBigint_of_allJson vs h.2, Bool.or_self]

theorem fieldsBigint_of_fieldsJson : ∀ fs : Fields, fieldsJson fs = true → fieldsBigint fs = false
  | [], _ => rfl
  | (_, v) :: fs, h => by
    simp only [fieldsJson, Bool.and_eq_true] at h
    simp only [fieldsBigint, hasBigint_of_isJson v h.1, fieldsBigint_of_fieldsJson fs h.2,
      Bool.or_self]
end

theorem isOmitted_of_isJson {v : JsValue} (h : v.isJson = true) : v.isOmitted = false := by
  cases v <;> first | rfl | cases h

/-- A JSON value has a text. -/
theorem stringify_of_isJson {v : JsValue} (h : v.isJson = true) :
    stringify v = .ok (some (jsonText v)) := by
  simp only [stringify, hasBigint_of_isJson v h, isOmitted_of_isJson h, Bool.false_eq_true,
    ↓reduceIte]

end Js
