import Homelab.JsValue

/-! `JSON.parse`, and that it reads back what `JSON.stringify` writes; and `JSON.parse` with the number literals
read by a parameter, since a double does not hold all of them. -/
namespace Js

def isSpace (c : CodeUnit) : Bool := c = 0x20 || c = 0x09 || c = 0x0A || c = 0x0D

def skipSpace : JsString → JsString
  | [] => []
  | c :: rest => if isSpace c then skipSpace rest else c :: rest

/-- The next token's first code unit and what follows it. -/
def nextUnit (s : JsString) : Option (CodeUnit × JsString) :=
  match skipSpace s with
  | [] => none
  | c :: rest => some (c, rest)

def hexValue (c : CodeUnit) : Option ℕ :=
  if 0x30 ≤ c.toNat ∧ c.toNat ≤ 0x39 then some (c.toNat-0x30)
  else if 0x61 ≤ c.toNat ∧ c.toNat ≤ 0x66 then some (c.toNat-0x57)
  else if 0x41 ≤ c.toNat ∧ c.toNat ≤ 0x46 then some (c.toNat-0x37)
  else none

/-- The one-letter escapes. -/
def unescape (c : CodeUnit) : Option CodeUnit :=
  if c = 0x22 then some 0x22
  else if c = 0x5C then some 0x5C
  else if c = 0x2F then some 0x2F
  else if c = 0x62 then some 0x08
  else if c = 0x66 then some 0x0C
  else if c = 0x6E then some 0x0A
  else if c = 0x72 then some 0x0D
  else if c = 0x74 then some 0x09
  else none

/-- Where a string literal is being read: between units, after a backslash, or
inside `\u` with `owed` hexadecimal digits left and the value so far. -/
inductive StringState
  | plain
  | escape
  | hex (owed value : ℕ)

/-- A string literal after its opening quote, up to its closing quote. -/
def parseStringFrom : StringState → JsString → Option (JsString × JsString)
  | _, [] => none
  | .plain, c :: rest =>
    if c = 0x22 then some ([], rest)
    else if c = 0x5C then parseStringFrom .escape rest
    else if c.toNat < 0x20 then none
    else (parseStringFrom .plain rest).map fun p => (c :: p.1, p.2)
  | .escape, c :: rest =>
    if c = 0x75 then parseStringFrom (.hex 3 0) rest
    else
      match unescape c with
      | some u => (parseStringFrom .plain rest).map fun p => (u :: p.1, p.2)
      | none => none
  | .hex owed value, c :: rest =>
    match hexValue c, owed with
    | some d, 0 => (parseStringFrom .plain rest).map fun p => ((value*0x10+d).toUInt16 :: p.1, p.2)
    | some d, owed+1 => parseStringFrom (.hex owed (value*0x10+d)) rest
    | none, _ => none

def parseStringBody (s : JsString) : Option (JsString × JsString) := parseStringFrom .plain s

/-- The rest of a keyword whose first letter has been read. -/
def parseWord (word : JsString) (v : JsValue) (s : JsString) : Option (JsValue × JsString) :=
  if word <+: s then some (v, s.drop word.length) else none

mutual
/-- A JSON value at the front of a text, with what follows it. -/
def parseValue : ℕ → JsString → Option (JsValue × JsString)
  | 0, _ => none
  | fuel+1, s => do
    let (c, rest) ← nextUnit s
    if c = 0x7B then
      let (d, rest') ← nextUnit rest
      if d = 0x7D then return (.obj [], rest')
      else
        let (entries, r) ← parseMembers fuel rest
        return (.obj (ofEntries entries), r)
    else if c = 0x5B then
      let (d, rest') ← nextUnit rest
      if d = 0x5D then return (.arr [], rest')
      else
        let (es, r) ← parseElements fuel rest
        return (.arr es, r)
    else if c = 0x22 then
      let (t, r) ← parseStringBody rest
      return (.str t, r)
    else if c = 0x74 then parseWord (js "rue") (.bool true) rest
    else if c = 0x66 then parseWord (js "alse") (.bool false) rest
    else if c = 0x6E then parseWord (js "ull") .null rest
    else
      let (d, r) ← parseNumber (c :: rest)
      return (.num (.fin d), r)

/-- The elements of an array up to its closing bracket. -/
def parseElements : ℕ → JsString → Option (List JsValue × JsString)
  | 0, _ => none
  | fuel+1, s => do
    let (v, s1) ← parseValue fuel s
    let (c, s2) ← nextUnit s1
    if c = 0x2C then
      let (vs, r) ← parseElements fuel s2
      return (v :: vs, r)
    else if c = 0x5D then return ([v], s2)
    else none

/-- The members of an object up to its closing brace. -/
def parseMembers : ℕ → JsString → Option (Fields × JsString)
  | 0, _ => none
  | fuel+1, s => do
    let (c, s0) ← nextUnit s
    if c = 0x22 then
      let (k, s1) ← parseStringBody s0
      let (d, s2) ← nextUnit s1
      if d = 0x3A then
        let (v, s3) ← parseValue fuel s2
        let (e, s4) ← nextUnit s3
        if e = 0x2C then
          let (fs, r) ← parseMembers fuel s4
          return ((k, v) :: fs, r)
        else if e = 0x7D then return ([(k, v)], s4)
        else none
      else none
    else none
end

/-- `JSON.parse(s)`; `none` is its `SyntaxError`. -/
def jsonParse (s : JsString) : Option JsValue :=
  match parseValue (2*s.length+2) s with
  | some (v, rest) => if skipSpace rest = [] then some v else none
  | none => none

/-! ### Strings -/

theorem hexValue_hexUnit : ∀ d < 0x10, hexValue (hexUnit d) = some d := by decide

theorem parseStringFrom_hexUnit (owed value d : ℕ) (hd : d < 0x10) (rest : JsString) :
    parseStringFrom (.hex (owed+1) value) (hexUnit d :: rest) =
      parseStringFrom (.hex owed (value*0x10+d)) rest := by
  simp only [parseStringFrom, hexValue_hexUnit d hd]

/-- A printed code unit reads back as itself. -/
theorem parseStringBody_quoteUnit (c : CodeUnit) (s t r : JsString)
    (h : parseStringBody s = some (t, r)) :
    parseStringBody (quoteUnit c ++ s) = some (c :: t, r) := by
  unfold parseStringBody at h
  have hsimple (e u : CodeUnit) (hu : unescape e = some u) (he : e ≠ 0x75) :
      parseStringBody ([0x5C, e] ++ s) = some (u :: t, r) := by
    simp only [List.cons_append, List.nil_append, parseStringBody, parseStringFrom,
      show ((0x5C : CodeUnit) = 0x22) = False by decide, he, ↓reduceIte, hu, h, Option.map_some]
  unfold quoteUnit
  split_ifs with h1 h2 h3 h4 h5 h6 h7 h8
  · exact h1 ▸ hsimple 0x62 0x08 rfl (by decide)
  · exact h2 ▸ hsimple 0x74 0x09 rfl (by decide)
  · exact h3 ▸ hsimple 0x6E 0x0A rfl (by decide)
  · exact h4 ▸ hsimple 0x66 0x0C rfl (by decide)
  · exact h5 ▸ hsimple 0x72 0x0D rfl (by decide)
  · exact h6 ▸ hsimple 0x22 0x22 rfl (by decide)
  · exact h7 ▸ hsimple 0x5C 0x5C rfl (by decide)
  · -- a control code or a lone surrogate
    have hlt : c.toNat < 0x10000 := c.toNat_lt
    have hsum : (((0*0x10+c.toNat/0x1000)*0x10+c.toNat/0x100%0x10)*0x10+c.toNat/0x10%0x10)*0x10+
        c.toNat%0x10 = c.toNat := by omega
    have hlast := hexValue_hexUnit (c.toNat%0x10) (by omega)
    simp only [unicodeEscape, List.cons_append, List.nil_append, parseStringBody]
    change parseStringFrom (.hex 3 0) _ = _
    rw [parseStringFrom_hexUnit 2 _ _ (by omega), parseStringFrom_hexUnit 1 _ _ (by omega),
      parseStringFrom_hexUnit 0 _ _ (by omega)]
    simp only [parseStringFrom, hlast, h, hsum, Option.map_some]
    rw [show c.toNat.toUInt16 = c from UInt16.ofNat_toNat]
  · simp only [Bool.or_eq_true, decide_eq_true_eq, not_or] at h8
    simp only [List.cons_append, List.nil_append, parseStringBody, parseStringFrom, h6, h7, h8.1.1,
      ↓reduceIte, h, Option.map_some]

/-- Half of a surrogate pair is not special in a string literal. -/
theorem parseStringBody_surrogate (c : CodeUnit) (s t r : JsString)
    (hc : isHigh c = true ∨ isLow c = true) (h : parseStringBody s = some (t, r)) :
    parseStringBody (c :: s) = some (c :: t, r) := by
  have hge : 0xD800 ≤ c.toNat := by
    simp only [isHigh, isLow, Bool.and_eq_true, decide_eq_true_eq] at hc
    omega
  have h1 : c ≠ 0x22 := by rintro rfl; revert hge; decide
  have h2 : c ≠ 0x5C := by rintro rfl; revert hge; decide
  have h3 : ¬ c.toNat < 0x20 := by omega
  unfold parseStringBody at h
  simp only [parseStringBody, parseStringFrom, h1, h2, h3, ↓reduceIte, h, Option.map_some]

theorem parseStringBody_quoteBody (s rest : JsString) :
    parseStringBody (quoteBody s ++ 0x22 :: rest) = some (s, rest) := by
  induction s using quoteBody.induct with
  | case1 => rfl
  | case2 c => exact parseStringBody_quoteUnit c _ [] rest rfl
  | case3 c d s hp ih =>
    simp only [quoteBody, hp, ↓reduceIte]
    rw [Bool.and_eq_true] at hp
    exact parseStringBody_surrogate c _ _ _ (Or.inl hp.1)
      (parseStringBody_surrogate d _ _ _ (Or.inr hp.2) ih)
  | case4 c d s hp ih =>
    simp only [quoteBody, hp, Bool.false_eq_true, ↓reduceIte, List.append_assoc]
    exact parseStringBody_quoteUnit c _ _ _ ih

/-! ### Values -/

mutual
/-- How many nested parser calls a value takes. -/
def parseCalls : JsValue → ℕ
  | .arr es => parseCallsAll es+1
  | .obj fs => parseCallsFields fs+1
  | _ => 1

def parseCallsAll : List JsValue → ℕ
  | [] => 0
  | v :: vs => parseCalls v+parseCallsAll vs+1

def parseCallsFields : Fields → ℕ
  | [] => 0
  | (_, v) :: fs => parseCalls v+parseCallsFields fs+1
end

theorem nextUnit_cons (c : CodeUnit) (rest : JsString) (h : isSpace c = false) :
    nextUnit (c :: rest) = some (c, rest) := by
  simp only [nextUnit, skipSpace, h, Bool.false_eq_true, ↓reduceIte]

theorem numberUnit_facts (c : CodeUnit) (h : isNumberUnit c = true) :
    isSpace c = false ∧ c ≠ 0x7B ∧ c ≠ 0x5B ∧ c ≠ 0x5D ∧ c ≠ 0x22 ∧ c ≠ 0x74 ∧ c ≠ 0x66 ∧
      c ≠ 0x6E := by
  refine ⟨?_, ?_, ?_, ?_, ?_, ?_, ?_, ?_⟩
  · by_contra hs
    simp only [isSpace, Bool.not_eq_false, Bool.or_eq_true, decide_eq_true_eq] at hs
    rcases hs with ((rfl | rfl) | rfl) | rfl <;> revert h <;> decide
  all_goals rintro rfl; revert h; decide

/-! ### Values that have a text -/

mutual
/-- `JSON.stringify` writes all of the value: its numbers are finite and nothing in it is left out. The
keys of an object may stand in any order. -/
def JsValue.hasText : JsValue → Bool
  | .null => true
  | .bool _ => true
  | .num x => x.isFinite
  | .str _ => true
  | .arr es => allHaveText es
  | .obj fs => fieldsHaveText fs
  | .undefined => false
  | .bigint _ => false
  | .function => false
  | .symbol => false

def allHaveText : List JsValue → Bool
  | [] => true
  | v :: vs => v.hasText && allHaveText vs

def fieldsHaveText : Fields → Bool
  | [] => true
  | (_, v) :: fs => v.hasText && fieldsHaveText fs
end

mutual
/-- The value that `JSON.parse` reads from its text: `-0` becomes `0`, and objects are built anew, one
property after the other. -/
def JsValue.asRead : JsValue → JsValue
  | .num (.fin d) => .num (.fin d.posZero)
  | .arr es => .arr (asReadAll es)
  | .obj fs => .obj (ofEntries (asReadFields fs))
  | .num .nan => .num .nan
  | .num (.inf s) => .num (.inf s)
  | .undefined => .undefined
  | .null => .null
  | .bool b => .bool b
  | .str s => .str s
  | .bigint n => .bigint n
  | .function => .function
  | .symbol => .symbol

def asReadAll : List JsValue → List JsValue
  | [] => []
  | v :: vs => v.asRead :: asReadAll vs

def asReadFields : Fields → Fields
  | [] => []
  | (k, v) :: fs => (k, v.asRead) :: asReadFields fs
end

theorem isOmitted_of_hasText {v : JsValue} (h : v.hasText = true) : v.isOmitted = false := by
  cases v <;> first | rfl | cases h

mutual
theorem hasText_of_isJson : ∀ v : JsValue, v.isJson = true → v.hasText = true
  | .null, _ => rfl
  | .bool _, _ => rfl
  | .num _, h => h
  | .str _, _ => rfl
  | .arr es, h => allHaveText_of_allJson es h
  | .obj fs, h => fieldsHaveText_of_fieldsJson fs (Bool.and_eq_true_iff.mp h).2
  | .undefined, h => by cases h
  | .bigint _, h => by cases h
  | .function, h => by cases h
  | .symbol, h => by cases h

theorem allHaveText_of_allJson : ∀ es : List JsValue, allJson es = true → allHaveText es = true
  | [], _ => rfl
  | v :: vs, h => by
    obtain ⟨hv, hvs⟩ := Bool.and_eq_true_iff.mp h
    rw [allHaveText, hasText_of_isJson v hv, allHaveText_of_allJson vs hvs]
    rfl

theorem fieldsHaveText_of_fieldsJson : ∀ fs : Fields, fieldsJson fs = true → fieldsHaveText fs = true
  | [], _ => rfl
  | (_, v) :: fs, h => by
    obtain ⟨hv, hfs⟩ := Bool.and_eq_true_iff.mp h
    rw [fieldsHaveText, hasText_of_isJson v hv, fieldsHaveText_of_fieldsJson fs hfs]
    rfl
end

mutual
/-- The objects of a JSON value list their keys in their own order already. -/
theorem asRead_of_isJson : ∀ v : JsValue, v.isJson = true → v.asRead = v.posZero
  | .null, _ => rfl
  | .bool _, _ => rfl
  | .num (.fin _), _ => rfl
  | .num .nan, _ => rfl
  | .num (.inf _), _ => rfl
  | .str _, _ => rfl
  | .arr es, h => by rw [JsValue.asRead, JsValue.posZero, asReadAll_of_allJson es h]
  | .obj fs, h => by
    obtain ⟨hown, hfs⟩ := Bool.and_eq_true_iff.mp h
    have hkeys : OwnOrder ((posZeroFields fs).map Prod.fst) := by
      rw [posZeroFields_keys]
      exact of_decide_eq_true hown
    rw [JsValue.asRead, JsValue.posZero, asReadFields_of_fieldsJson fs hfs, ofEntries_ownOrder _ hkeys]
  | .undefined, _ => rfl
  | .bigint _, _ => rfl
  | .function, _ => rfl
  | .symbol, _ => rfl

theorem asReadAll_of_allJson : ∀ es : List JsValue, allJson es = true → asReadAll es = posZeroAll es
  | [], _ => rfl
  | v :: vs, h => by
    obtain ⟨hv, hvs⟩ := Bool.and_eq_true_iff.mp h
    rw [asReadAll, posZeroAll, asRead_of_isJson v hv, asReadAll_of_allJson vs hvs]

theorem asReadFields_of_fieldsJson : ∀ fs : Fields, fieldsJson fs = true →
    asReadFields fs = posZeroFields fs
  | [], _ => rfl
  | (_, v) :: fs, h => by
    obtain ⟨hv, hfs⟩ := Bool.and_eq_true_iff.mp h
    rw [asReadFields, posZeroFields, asRead_of_isJson v hv, asReadFields_of_fieldsJson fs hfs]
end

/-! ### Reading a text back -/

/-- A value's text starts with a unit that no separator or space can be. -/
theorem jsonText_head (v : JsValue) (hv : v.hasText = true) :
    ∃ c rest, jsonText v = c :: rest ∧ isSpace c = false ∧ c ≠ 0x5D := by
  cases v with
  | null => exact ⟨_, _, rfl, by decide, by decide⟩
  | bool b => cases b <;> exact ⟨_, _, rfl, by decide, by decide⟩
  | num x =>
    cases x with
    | fin d =>
      obtain ⟨c, rest, hd⟩ := List.exists_cons_of_ne_nil d.toText_ne_nil
      have hf := numberUnit_facts c (d.toText_units c (by rw [hd]; exact List.mem_cons_self ..))
      exact ⟨c, rest, hd, hf.1, hf.2.2.2.1⟩
    | nan => cases hv
    | inf s => cases hv
  | str s => exact ⟨_, _, rfl, by decide, by decide⟩
  | arr es => exact ⟨_, _, rfl, by decide, by decide⟩
  | obj fs => exact ⟨_, _, rfl, by decide, by decide⟩
  | undefined => cases hv
  | bigint n => cases hv
  | function => cases hv
  | symbol => cases hv

theorem numberEnd_comma (s : JsString) : NumberEnd (0x2C :: s) :=
  show isDigitUnit 0x2C = false ∧ _ by decide

theorem numberEnd_bracket (s : JsString) : NumberEnd (0x5D :: s) :=
  show isDigitUnit 0x5D = false ∧ _ by decide

theorem numberEnd_brace (s : JsString) : NumberEnd (0x7D :: s) :=
  show isDigitUnit 0x7D = false ∧ _ by decide

theorem fieldTexts_cons (k : JsString) (v : JsValue) (fs : Fields) (h : v.hasText = true) :
    fieldTexts ((k, v) :: fs) = (quote k ++ 0x3A :: jsonText v) :: fieldTexts fs := by
  simp only [fieldTexts, isOmitted_of_hasText h, Bool.false_eq_true, ↓reduceIte]

mutual
/-- `JSON.parse` reads a value back from its text. -/
theorem parseValue_jsonText : ∀ (v : JsValue) (fuel : ℕ) (rest : JsString), v.hasText = true →
    parseCalls v ≤ fuel → NumberEnd rest →
    parseValue fuel (jsonText v ++ rest) = some (v.asRead, rest)
  | .null, fuel+1, rest, _, _, _ => rfl
  | .bool true, fuel+1, rest, _, _, _ => rfl
  | .bool false, fuel+1, rest, _, _, _ => rfl
  | .num (.fin d), fuel+1, rest, _, _, hr => by
    have hp := parseNumber_toText d rest hr
    -- the first unit of a number tells it from all other values
    obtain ⟨c, s, hd⟩ := List.exists_cons_of_ne_nil d.toText_ne_nil
    obtain ⟨hsp, h1, h2, _, h4, h5, h6, h7⟩ :=
      numberUnit_facts c (d.toText_units c (by rw [hd]; exact List.mem_cons_self ..))
    rw [hd, List.cons_append] at hp
    simp only [jsonText, hd, List.cons_append, parseValue, nextUnit_cons c _ hsp, h1, h2, h4, h5,
      h6, h7, ↓reduceIte, Option.bind_eq_bind, Option.bind_some, hp]
    rfl
  | .str s, fuel+1, rest, _, _, _ => by
    have hs := parseStringBody_quoteBody s rest
    have hq : jsonText (.str s) ++ rest = 0x22 :: (quoteBody s ++ 0x22 :: rest) := by
      simp [jsonText, quote]
    rw [hq]
    simp only [parseValue, nextUnit_cons 0x22 _ (by decide), Option.bind_eq_bind, Option.bind_some,
      hs]
    rfl
  | .arr [], fuel+1, rest, _, _, _ => rfl
  | .arr (v :: vs), fuel+1, rest, hv, hf, _ => by
    simp only [parseCalls] at hf
    have he := parseElements_texts v vs fuel rest hv (by omega)
    -- the text of an element does not start with the closing bracket
    obtain ⟨c, s, hc, hsp, hne⟩ : ∃ c s, joinComma (elemTexts (v :: vs)) ++ 0x5D :: rest = c :: s ∧
        isSpace c = false ∧ c ≠ 0x5D := by
      simp only [JsValue.hasText, allHaveText, Bool.and_eq_true] at hv
      obtain ⟨c, s, hc, hsp, hne⟩ := jsonText_head v hv.1
      cases vs with
      | nil => exact ⟨c, s ++ 0x5D :: rest, by simp [elemTexts, joinComma, hc], hsp, hne⟩
      | cons w ws => exact ⟨c, s ++ _, by simp [elemTexts, joinComma, hc]; rfl, hsp, hne⟩
    have hq : jsonText (.arr (v :: vs)) ++ rest =
        0x5B :: (joinComma (elemTexts (v :: vs)) ++ 0x5D :: rest) := by simp [jsonText]
    rw [hq]
    simp only [parseValue, nextUnit_cons 0x5B _ (by decide), Option.bind_eq_bind, Option.bind_some,
      he]
    rw [hc]
    simp only [nextUnit_cons c s hsp, Option.bind_some, hne, ↓reduceIte]
    rfl
  | .obj [], fuel+1, rest, _, _, _ => rfl
  | .obj ((k, v) :: fs), fuel+1, rest, hv, hf, _ => by
    simp only [parseCalls] at hf
    have he := parseMembers_texts k v fs fuel rest hv (by omega)
    obtain ⟨s, hc⟩ : ∃ s, joinComma (fieldTexts ((k, v) :: fs)) ++ 0x7D :: rest = 0x22 :: s := by
      simp only [JsValue.hasText, fieldsHaveText, Bool.and_eq_true] at hv
      rw [fieldTexts_cons k v fs hv.1]
      cases fieldTexts fs with
      | nil => exact ⟨_, rfl⟩
      | cons w ws => exact ⟨_, rfl⟩
    have hq : jsonText (.obj ((k, v) :: fs)) ++ rest =
        0x7B :: (joinComma (fieldTexts ((k, v) :: fs)) ++ 0x7D :: rest) := by simp [jsonText]
    rw [hq]
    simp only [parseValue, nextUnit_cons 0x7B _ (by decide), Option.bind_eq_bind, Option.bind_some,
      he]
    rw [hc]
    simp only [nextUnit_cons 0x22 s (by decide), Option.bind_some]
    rfl
  | .num .nan, _, _, hv, _, _ => by cases hv
  | .num (.inf _), _, _, hv, _, _ => by cases hv
  | .undefined, _, _, hv, _, _ => by cases hv
  | .bigint _, _, _, hv, _, _ => by cases hv
  | .function, _, _, hv, _, _ => by cases hv
  | .symbol, _, _, hv, _, _ => by cases hv
  | .null, 0, _, _, hf, _ => by simp [parseCalls] at hf
  | .bool _, 0, _, _, hf, _ => by simp [parseCalls] at hf
  | .num (.fin _), 0, _, _, hf, _ => by simp [parseCalls] at hf
  | .str _, 0, _, _, hf, _ => by simp [parseCalls] at hf
  | .arr _, 0, _, _, hf, _ => by simp [parseCalls] at hf
  | .obj _, 0, _, _, hf, _ => by simp [parseCalls] at hf

theorem parseElements_texts : ∀ (v : JsValue) (vs : List JsValue) (fuel : ℕ) (rest : JsString),
    allHaveText (v :: vs) = true → parseCallsAll (v :: vs) ≤ fuel →
    parseElements fuel (joinComma (elemTexts (v :: vs)) ++ 0x5D :: rest) =
      some (asReadAll (v :: vs), rest)
  | v, [], fuel+1, rest, hv, hf => by
    simp only [allHaveText, Bool.and_eq_true, parseCallsAll] at hv hf
    have hp := parseValue_jsonText v fuel (0x5D :: rest) hv.1 (by omega) (numberEnd_bracket rest)
    simp only [elemTexts, joinComma, parseElements, hp, nextUnit_cons 0x5D rest (by decide),
      Option.bind_eq_bind, Option.bind_some]
    rfl
  | v, w :: ws, fuel+1, rest, hv, hf => by
    have hv' : v.hasText = true ∧ allHaveText (w :: ws) = true := by
      simpa only [allHaveText, Bool.and_eq_true] using hv
    simp only [parseCallsAll] at hf
    have hp := parseValue_jsonText v fuel
      (0x2C :: (joinComma (elemTexts (w :: ws)) ++ 0x5D :: rest)) hv'.1 (by omega) (numberEnd_comma _)
    have he := parseElements_texts w ws fuel rest hv'.2 (by simp only [parseCallsAll]; omega)
    have hq : joinComma (elemTexts (v :: w :: ws)) ++ 0x5D :: rest =
        jsonText v ++ 0x2C :: (joinComma (elemTexts (w :: ws)) ++ 0x5D :: rest) := by
      simp [elemTexts, joinComma]
    rw [hq]
    simp only [parseElements, hp, nextUnit_cons 0x2C _ (by decide), Option.bind_eq_bind,
      Option.bind_some, ↓reduceIte, he]
    rfl
  | _, _, 0, _, _, hf => by simp [parseCallsAll] at hf

theorem parseMembers_texts : ∀ (k : JsString) (v : JsValue) (fs : Fields) (fuel : ℕ)
    (rest : JsString), fieldsHaveText ((k, v) :: fs) = true → parseCallsFields ((k, v) :: fs) ≤ fuel →
    parseMembers fuel (joinComma (fieldTexts ((k, v) :: fs)) ++ 0x7D :: rest) =
      some (asReadFields ((k, v) :: fs), rest)
  | k, v, [], fuel+1, rest, hv, hf => by
    simp only [fieldsHaveText, Bool.and_eq_true, parseCallsFields] at hv hf
    have hp := parseValue_jsonText v fuel (0x7D :: rest) hv.1 (by omega) (numberEnd_brace rest)
    have hk := parseStringBody_quoteBody k (0x3A :: (jsonText v ++ 0x7D :: rest))
    have hq : joinComma (fieldTexts [(k, v)]) ++ 0x7D :: rest =
        0x22 :: (quoteBody k ++ 0x22 :: 0x3A :: (jsonText v ++ 0x7D :: rest)) := by
      rw [fieldTexts_cons k v [] hv.1]
      simp [fieldTexts, joinComma, quote]
    rw [hq]
    simp only [parseMembers, nextUnit_cons 0x22 _ (by decide), Option.bind_eq_bind,
      Option.bind_some, ↓reduceIte, hk, nextUnit_cons 0x3A _ (by decide), hp,
      nextUnit_cons 0x7D rest (by decide)]
    rfl
  | k, v, (k', v') :: fs, fuel+1, rest, hv, hf => by
    have hv' : v.hasText = true ∧ fieldsHaveText ((k', v') :: fs) = true := by
      simpa only [fieldsHaveText, Bool.and_eq_true] using hv
    have hw : v'.hasText = true := by
      simp only [fieldsHaveText, Bool.and_eq_true] at hv'
      exact hv'.2.1
    simp only [parseCallsFields] at hf
    have he := parseMembers_texts k' v' fs fuel rest hv'.2 (by simp only [parseCallsFields]; omega)
    set more := joinComma (fieldTexts ((k', v') :: fs)) ++ 0x7D :: rest with hmore
    have hp := parseValue_jsonText v fuel (0x2C :: more) hv'.1 (by omega) (numberEnd_comma _)
    have hk := parseStringBody_quoteBody k (0x3A :: (jsonText v ++ 0x2C :: more))
    have hq : joinComma (fieldTexts ((k, v) :: (k', v') :: fs)) ++ 0x7D :: rest =
        0x22 :: (quoteBody k ++ 0x22 :: 0x3A :: (jsonText v ++ 0x2C :: more)) := by
      rw [hmore, fieldTexts_cons k v _ hv'.1, fieldTexts_cons k' v' fs hw]
      simp [joinComma, quote]
    rw [hq]
    simp only [parseMembers, nextUnit_cons 0x22 _ (by decide), Option.bind_eq_bind,
      Option.bind_some, ↓reduceIte, hk, nextUnit_cons 0x3A _ (by decide), hp,
      nextUnit_cons 0x2C _ (by decide), he]
    rfl
  | _, _, _, 0, _, _, hf => by simp [parseCallsFields] at hf
end

mutual
/-- The parser's call bound fits in the text. -/
theorem parseCalls_le : ∀ v : JsValue, v.hasText = true → parseCalls v ≤ 2*(jsonText v).length
  | .null, _ => by decide
  | .bool true, _ => by decide
  | .bool false, _ => by decide
  | .num (.fin d), _ => by
    have := List.length_pos_of_ne_nil d.toText_ne_nil
    simp only [parseCalls, jsonText]
    omega
  | .str s, _ => by
    simp only [parseCalls, jsonText, quote, List.length_append, List.length_cons]
    omega
  | .arr es, hv => by
    have := parseCallsAll_le es hv
    simp only [parseCalls, jsonText, List.length_append, List.length_cons, List.length_nil]
    omega
  | .obj fs, hv => by
    have := parseCallsFields_le fs hv
    simp only [parseCalls, jsonText, List.length_append, List.length_cons, List.length_nil]
    omega
  | .num .nan, hv => by cases hv
  | .num (.inf _), hv => by cases hv
  | .undefined, hv => by cases hv
  | .bigint _, hv => by cases hv
  | .function, hv => by cases hv
  | .symbol, hv => by cases hv

theorem parseCallsAll_le : ∀ es : List JsValue, allHaveText es = true →
    parseCallsAll es ≤ 2*(joinComma (elemTexts es)).length+1
  | [], _ => by decide
  | [v], hv => by
    simp only [allHaveText, Bool.and_eq_true] at hv
    have := parseCalls_le v hv.1
    simp only [parseCallsAll, elemTexts, joinComma]
    omega
  | v :: w :: ws, hv => by
    have hv' : v.hasText = true ∧ allHaveText (w :: ws) = true := by
      simpa only [allHaveText, Bool.and_eq_true] using hv
    have h1 := parseCalls_le v hv'.1
    have h2 := parseCallsAll_le (w :: ws) hv'.2
    simp only [elemTexts] at h2
    simp only [elemTexts, joinComma, List.length_append, List.length_cons]
    rw [parseCallsAll]
    omega

theorem parseCallsFields_le : ∀ fs : Fields, fieldsHaveText fs = true →
    parseCallsFields fs ≤ 2*(joinComma (fieldTexts fs)).length+1
  | [], _ => by decide
  | [(k, v)], hv => by
    simp only [fieldsHaveText, Bool.and_eq_true] at hv
    have := parseCalls_le v hv.1
    rw [fieldTexts_cons k v [] hv.1]
    simp only [parseCallsFields, fieldTexts, joinComma, List.length_append, List.length_cons]
    omega
  | (k, v) :: (k', v') :: fs, hv => by
    have hv' : v.hasText = true ∧ fieldsHaveText ((k', v') :: fs) = true := by
      simpa only [fieldsHaveText, Bool.and_eq_true] using hv
    have hw : v'.hasText = true := by
      simp only [fieldsHaveText, Bool.and_eq_true] at hv'
      exact hv'.2.1
    have h1 := parseCalls_le v hv'.1
    have h2 := parseCallsFields_le ((k', v') :: fs) hv'.2
    rw [fieldTexts_cons k' v' fs hw] at h2
    rw [fieldTexts_cons k v _ hv'.1, fieldTexts_cons k' v' fs hw, parseCallsFields]
    simp only [joinComma, List.length_append, List.length_cons] at h2 ⊢
    omega
end

/-- A value that has a text is read back from it. -/
theorem jsonParse_hasText (v : JsValue) (hv : v.hasText = true) :
    jsonParse (jsonText v) = some v.asRead := by
  have hc := parseCalls_le v hv
  have hp := parseValue_jsonText v (2*(jsonText v).length+2) [] hv (by omega) trivial
  rw [List.append_nil] at hp
  simp only [jsonParse, hp, skipSpace, ↓reduceIte]

/-- Parsing the text of a JSON value gives the value back, with `0` for `-0`. -/
theorem jsonParse_jsonText (v : JsValue) (hv : v.isJson = true) :
    jsonParse (jsonText v) = some v.posZero := by
  rw [jsonParse_hasText v (hasText_of_isJson v hv), asRead_of_isJson v hv]

end Js

namespace Homelab
open Js

/-! ### Number literals -/

mutual
/-- A parsed value, its number literals read by `double`. -/
def readNumbers (double : Decimal → JsNumber) : JsValue → JsValue
  | .num (.fin d) => .num (double d)
  | .num .nan => .num .nan
  | .num (.inf neg) => .num (.inf neg)
  | .arr es => .arr (readNumbersAll double es)
  | .obj fs => .obj (readNumbersFields double fs)
  | .undefined => .undefined
  | .null => .null
  | .bool b => .bool b
  | .str s => .str s
  | .bigint n => .bigint n
  | .function => .function
  | .symbol => .symbol

def readNumbersAll (double : Decimal → JsNumber) : List JsValue → List JsValue
  | [] => []
  | v :: es => readNumbers double v :: readNumbersAll double es

def readNumbersFields (double : Decimal → JsNumber) : Fields → Fields
  | [] => []
  | (k, v) :: fs => (k, readNumbers double v) :: readNumbersFields double fs
end

/-- `JSON.parse` of a text -/
def parseLine (double : Decimal → JsNumber) (line : JsString) : Option JsValue :=
  (jsonParse line).map (readNumbers double)

end Homelab
