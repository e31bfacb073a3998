import Homelab.JsNumber

/-! `Number::toString` and the JSON number grammar. Printing and reading back is
exact up to the sign of zero. -/
namespace Js

def digitUnit (d : ℕ) : CodeUnit := (48+d).toUInt16

def isDigitUnit (c : CodeUnit) : Bool := 48 ≤ c.toNat && c.toNat ≤ 57

/-- The decimal digits of a significand, most significant first. -/
def digitList (m : ℕ) : List ℕ := (Nat.digits 10 m).reverse

/-- The number a digit sequence denotes. -/
def ofDigitList (ds : List ℕ) : ℕ := Nat.ofDigits 10 ds.reverse

def digitsText (ds : List ℕ) : JsString := ds.map digitUnit

/-- The case analysis of `Number::toString` on a positive decimal with digits
`ds` whose decimal point stands after `n` digits. -/
def positionalText (ds : List ℕ) (n : ℤ) : JsString :=
  if ds.length ≤ n ∧ n ≤ 21 then digitsText (ds ++ List.replicate (n-ds.length).toNat 0)
  else if 0 < n ∧ n ≤ 21 then
    digitsText (ds.take n.toNat) ++ js "." ++ digitsText (ds.drop n.toNat)
  else if -6 < n ∧ n ≤ 0 then
    js "0." ++ digitsText (List.replicate (-n).toNat 0 ++ ds)
  else
    digitsText (ds.take 1) ++ (if ds.length = 1 then [] else js "." ++ digitsText (ds.drop 1)) ++
      js "e" ++ (if n-1 < 0 then js "-" else js "+") ++ digitsText (digitList (n-1).natAbs)

/-- `Number::toString` of a finite number. -/
def Decimal.toText (d : Decimal) : JsString :=
  if d.digits = 0 then js "0"
  else (if d.neg then js "-" else []) ++
    positionalText (digitList d.digits) ((digitList d.digits).length+d.exp)

/-- `String(x)` for a number. -/
def JsNumber.toText : JsNumber → JsString
  | .nan => js "NaN"
  | .inf true => js "-Infinity"
  | .inf false => js "Infinity"
  | .fin d => d.toText

/-- The longest run of digits at the front of a text. -/
def spanDigits : JsString → List ℕ × JsString
  | [] => ([], [])
  | c :: rest =>
    if isDigitUnit c then ((c.toNat-48) :: (spanDigits rest).1, (spanDigits rest).2)
    else ([], c :: rest)

/-- `[ minus ]` -/
def parseMinus : JsString → Bool × JsString
  | [] => (false, [])
  | c :: rest => if c = 0x2D then (true, rest) else (false, c :: rest)

/-- `[ frac ]`: the digits after a decimal point, of which there is at least one. -/
def parseFrac : JsString → Option (List ℕ × JsString)
  | [] => some ([], [])
  | c :: rest =>
    if c = 0x2E then
      if (spanDigits rest).1 = [] then none else some (spanDigits rest)
    else some ([], c :: rest)

/-- The digits of an exponent, after its sign. -/
def parseExpDigits (neg : Bool) (s : JsString) : Option (ℤ × JsString) :=
  if (spanDigits s).1 = [] then none
  else some (if neg then -(ofDigitList (spanDigits s).1 : ℤ) else ofDigitList (spanDigits s).1,
    (spanDigits s).2)

/-- `[ exp ]` -/
def parseExp : JsString → Option (ℤ × JsString)
  | [] => some (0, [])
  | c :: rest =>
    if c = 0x65 ∨ c = 0x45 then
      match rest with
      | [] => none
      | d :: rest' =>
        if d = 0x2D then parseExpDigits true rest'
        else if d = 0x2B then parseExpDigits false rest'
        else parseExpDigits false (d :: rest')
    else some (0, c :: rest)

/-- A JSON number at the front of a text, with what follows it. -/
def parseNumber (s : JsString) : Option (Decimal × JsString) :=
  let (neg, s1) := parseMinus s
  let (ip, s2) := spanDigits s1
  if ip = [] ∨ (ip.head? = some 0 ∧ 1 < ip.length) then none
  else do
    let (fp, s3) ← parseFrac s2
    let (e, s4) ← parseExp s3
    return (Decimal.ofScaled neg (ofDigitList (ip ++ fp)) (e-fp.length), s4)

/-! ### Digits -/

theorem digitUnit_toNat (d : ℕ) (hd : d < 10) : (digitUnit d).toNat = 48+d := by
  unfold digitUnit
  rw [Nat.toUInt16, UInt16.toNat_ofNat']
  omega

theorem isDigitUnit_digitUnit (d : ℕ) (hd : d < 10) : isDigitUnit (digitUnit d) = true := by
  simp only [isDigitUnit, digitUnit_toNat d hd, Bool.and_eq_true, decide_eq_true_eq]
  omega

theorem digitList_lt (m : ℕ) : ∀ d ∈ digitList m, d < 10 := by
  intro d hd
  exact Nat.digits_lt_base (by omega) (List.mem_reverse.mp hd)

theorem ofDigitList_digitList (m : ℕ) : ofDigitList (digitList m) = m := by
  simp only [ofDigitList, digitList, List.reverse_reverse, Nat.ofDigits_digits]

theorem digitList_ne_nil (m : ℕ) (hm : m ≠ 0) : digitList m ≠ [] := by
  simp only [digitList, ne_eq, List.reverse_eq_nil_iff]
  exact Nat.digits_ne_nil_iff_ne_zero.mpr hm

/-- The leading digit of a positive number is not zero. -/
theorem digitList_head (m : ℕ) (hm : m ≠ 0) : (digitList m).head? ≠ some 0 := by
  have hne : Nat.digits 10 m ≠ [] := Nat.digits_ne_nil_iff_ne_zero.mpr hm
  rw [digitList, List.head?_reverse, List.getLast?_eq_getLast_of_ne_nil hne]
  intro h
  exact Nat.getLast_digit_ne_zero 10 hm (Option.some.inj h)

theorem ofDigitList_append (a b : List ℕ) :
    ofDigitList (a ++ b) = ofDigitList a*10^b.length+ofDigitList b := by
  simp only [ofDigitList, List.reverse_append, Nat.ofDigits_append, List.length_reverse]
  ring

theorem ofDigitList_zeros (n : ℕ) : ofDigitList (List.replicate n 0) = 0 := by
  induction n with
  | zero => rfl
  | succ n ih =>
    rw [List.replicate_succ', ofDigitList_append, ih]
    simp [ofDigitList]

/-! ### Reading back -/

/-- What follows a number: no code unit that the number grammar could take. -/
def NumberEnd : JsString → Prop
  | [] => True
  | c :: _ => isDigitUnit c = false ∧ c ≠ 0x2E ∧ c ≠ 0x65 ∧ c ≠ 0x45

/-- What follows a run of digits: the end or another code unit. -/
def DigitsEnd : JsString → Prop
  | [] => True
  | c :: _ => isDigitUnit c = false

theorem NumberEnd.digitsEnd {s : JsString} (h : NumberEnd s) : DigitsEnd s := by
  cases s with
  | nil => trivial
  | cons c rest => exact h.1

theorem spanDigits_end {s : JsString} (h : DigitsEnd s) : spanDigits s = ([], s) := by
  cases s with
  | nil => rfl
  | cons c rest => simp only [spanDigits, show isDigitUnit c = false from h, Bool.false_eq_true, ↓reduceIte]

theorem spanDigits_text (ds : List ℕ) (rest : JsString) (hd : ∀ d ∈ ds, d < 10)
    (hr : DigitsEnd rest) : spanDigits (digitsText ds ++ rest) = (ds, rest) := by
  induction ds with
  | nil => exact spanDigits_end hr
  | cons d ds ih =>
    have hlt : d < 10 := hd d (List.mem_cons_self ..)
    have ih := ih (fun x hx => hd x (List.mem_cons_of_mem _ hx))
    change spanDigits (digitUnit d :: (digitsText ds ++ rest)) = _
    simp only [spanDigits, isDigitUnit_digitUnit d hlt, ↓reduceIte, ih, digitUnit_toNat d hlt,
      Nat.add_sub_cancel_left]

theorem parseFrac_end {s : JsString} (h : NumberEnd s) : parseFrac s = some ([], s) := by
  cases s with
  | nil => rfl
  | cons c rest => simp only [parseFrac, h.2.1, ↓reduceIte]

theorem parseExp_end {s : JsString} (h : NumberEnd s) : parseExp s = some (0, s) := by
  cases s with
  | nil => rfl
  | cons c rest => simp only [parseExp, h.2.2.1, h.2.2.2, or_self, ↓reduceIte]

theorem parseFrac_text (fp : List ℕ) (rest : JsString) (hd : ∀ d ∈ fp, d < 10) (hne : fp ≠ [])
    (hr : DigitsEnd rest) : parseFrac (js "." ++ digitsText fp ++ rest) = some (fp, rest) := by
  have hs := spanDigits_text fp rest hd hr
  change parseFrac (0x2E :: (digitsText fp ++ rest)) = _
  simp only [parseFrac, ↓reduceIte, hs, hne]

theorem parseExp_text (n : ℤ) (rest : JsString) (hn : n ≠ 0) (hr : DigitsEnd rest) :
    parseExp (js "e" ++ (if n < 0 then js "-" else js "+") ++ digitsText (digitList n.natAbs) ++ rest) =
      some (n, rest) := by
  have hs := spanDigits_text (digitList n.natAbs) rest (digitList_lt _) hr
  have hne : digitList n.natAbs ≠ [] := digitList_ne_nil _ (Int.natAbs_ne_zero.mpr hn)
  by_cases hneg : n < 0
  · simp only [hneg, ↓reduceIte]
    change parseExp (0x65 :: 0x2D :: (digitsText (digitList n.natAbs) ++ rest)) = _
    simp only [parseExp, true_or, ↓reduceIte, parseExpDigits, hs, hne, ofDigitList_digitList]
    congr 2
    omega
  · simp only [hneg, ↓reduceIte]
    change parseExp (0x65 :: 0x2B :: (digitsText (digitList n.natAbs) ++ rest)) = _
    simp only [parseExp, true_or, ↓reduceIte, parseExpDigits, hs, hne, ofDigitList_digitList,
      show ((0x2B : CodeUnit) = 0x2D) = False by decide, Bool.false_eq_true]
    congr 2
    omega

/-- A number text whose integer part is `ip`, given how the rest of it reads. -/
theorem parseNumber_parts (ip fp : List ℕ) (e : ℤ) (s s3 rest : JsString)
    (hd : ∀ d ∈ ip, d < 10) (hne : ip ≠ []) (hlead : ip.head? = some 0 → ip.length ≤ 1)
    (hs : DigitsEnd s) (hf : parseFrac s = some (fp, s3)) (he : parseExp s3 = some (e, rest))
    (neg : Bool) :
    parseNumber ((if neg then js "-" else []) ++ digitsText ip ++ s) =
      some (Decimal.ofScaled neg (ofDigitList (ip ++ fp)) (e-fp.length), rest) := by
  have hspan := spanDigits_text ip s hd hs
  have hbad : ¬(ip = [] ∨ (ip.head? = some 0 ∧ 1 < ip.length)) := by
    rintro (h | ⟨h1, h2⟩)
    · exact hne h
    · have := hlead h1
      omega
  have hminus : parseMinus ((if neg then js "-" else []) ++ digitsText ip ++ s) =
      (neg, digitsText ip ++ s) := by
    cases neg with
    | true => rfl
    | false =>
      obtain ⟨d, ds, rfl⟩ := List.exists_cons_of_ne_nil hne
      have hlt : d < 10 := hd d (List.mem_cons_self ..)
      have hc : digitUnit d ≠ 0x2D := by
        intro h
        have := digitUnit_toNat d hlt
        rw [h] at this
        change 45 = 48+d at this
        omega
      change parseMinus (digitUnit d :: (digitsText ds ++ s)) = _
      simp only [parseMinus, hc, ↓reduceIte]
      rfl
  simp only [parseNumber, hminus, hspan, hbad, ↓reduceIte, hf, Option.bind_eq_bind,
    Option.bind_some, he]
  rfl

theorem ofScaled_self (d : Decimal) (hd0 : d.digits ≠ 0) :
    Decimal.ofScaled d.neg d.digits d.exp = d := by
  simpa using Decimal.ofScaled_digits d 0 hd0

theorem zeros_lt (n : ℕ) : ∀ x ∈ List.replicate n 0, x < 10 := by
  intro x hx
  rw [List.eq_of_mem_replicate hx]
  omega

section Notations

variable (d : Decimal) (hd0 : d.digits ≠ 0) (rest : JsString) (hr : NumberEnd rest)
include hd0 hr

/-- An integer below 10²² is printed with all its zeros. -/
theorem parseNumber_integer (x : ℕ) (hx : d.exp = x) :
    parseNumber ((if d.neg then js "-" else []) ++
      digitsText (digitList d.digits ++ List.replicate x 0) ++ rest) = some (d, rest) := by
  have hhead := digitList_head d.digits hd0
  have hne := digitList_ne_nil d.digits hd0
  have hp := parseNumber_parts (digitList d.digits ++ List.replicate x 0) [] 0 rest rest rest
    (fun y hy => (List.mem_append.mp hy).elim (digitList_lt _ y) (zeros_lt x y)) (by simp [hne])
    (fun h => absurd (by rwa [List.head?_append_of_ne_nil _ hne] at h) hhead)
    hr.digitsEnd (parseFrac_end hr) (parseExp_end hr) d.neg
  have hsc := Decimal.ofScaled_digits d x hd0
  rw [hx, sub_self] at hsc
  rw [hp]
  simp only [List.append_nil, ofDigitList_append, ofDigitList_digitList, List.length_replicate,
    ofDigitList_zeros, add_zero, List.length_nil, Nat.cast_zero, sub_zero, hsc]

/-- A decimal point among the digits. -/
theorem parseNumber_point (k : ℕ) (hk0 : 0 < k) (hk : k < (digitList d.digits).length)
    (hexp : (digitList d.digits).length+d.exp = k) :
    parseNumber ((if d.neg then js "-" else []) ++ (digitsText ((digitList d.digits).take k) ++
      js "." ++ digitsText ((digitList d.digits).drop k)) ++ rest) = some (d, rest) := by
  have hhead := digitList_head d.digits hd0
  have hlt := digitList_lt d.digits
  have hval := ofDigitList_digitList d.digits
  set ds := digitList d.digits
  have hdrop : (ds.drop k).length = ds.length-k := List.length_drop ..
  have hdropne : ds.drop k ≠ [] := List.ne_nil_of_length_pos (by omega)
  have htakene : ds.take k ≠ [] := List.ne_nil_of_length_pos (by rw [List.length_take]; omega)
  have hp := parseNumber_parts (ds.take k) (ds.drop k) 0
    (js "." ++ digitsText (ds.drop k) ++ rest) rest rest
    (fun y hy => hlt y (List.mem_of_mem_take hy)) htakene
    (fun h => absurd (by rwa [List.head?_take, if_neg (by omega)] at h) hhead)
    (show isDigitUnit 0x2E = false by decide)
    (parseFrac_text _ _ (fun y hy => hlt y (List.mem_of_mem_drop hy)) hdropne hr.digitsEnd)
    (parseExp_end hr) d.neg
  have he : (0:ℤ)-(ds.drop k).length = d.exp := by rw [hdrop]; omega
  rw [List.take_append_drop, hval, he, ofScaled_self d hd0] at hp
  simpa only [List.append_assoc] using hp

/-- Zeros between the decimal point and the digits. -/
theorem parseNumber_fraction (z : ℕ) (hz : (digitList d.digits).length+d.exp = -z) :
    parseNumber ((if d.neg then js "-" else []) ++
      (js "0." ++ digitsText (List.replicate z 0 ++ digitList d.digits)) ++ rest) =
      some (d, rest) := by
  have hne := digitList_ne_nil d.digits hd0
  have hlt := digitList_lt d.digits
  have hval := ofDigitList_digitList d.digits
  set ds := digitList d.digits
  have hp := parseNumber_parts [0] (List.replicate z 0 ++ ds) 0
    (js "." ++ digitsText (List.replicate z 0 ++ ds) ++ rest) rest rest
    (by simp) (by simp) (by simp) (show isDigitUnit 0x2E = false by decide)
    (parseFrac_text _ _ (fun y hy => (List.mem_append.mp hy).elim (zeros_lt z y) (hlt y))
      (by simp [hne]) hr.digitsEnd) (parseExp_end hr) d.neg
  have he : (0:ℤ)-(List.replicate z 0 ++ ds).length = d.exp := by
    rw [List.length_append, List.length_replicate]
    push_cast
    omega
  have hv : ofDigitList ([0] ++ (List.replicate z 0 ++ ds)) = d.digits := by
    rw [← List.append_assoc, ofDigitList_append, hval]
    change ofDigitList (List.replicate (z+1) 0)*_+_ = _
    rw [ofDigitList_zeros, zero_mul, zero_add]
  rw [hv, he, ofScaled_self d hd0] at hp
  rw [← hp]
  simp only [List.append_assoc]
  rfl

/-- One digit, or one digit and a fraction, with an exponent. -/
theorem parseNumber_exponent (n : ℤ) (hn : n ≠ 0) (hexp : (digitList d.digits).length+d.exp-1 = n) :
    parseNumber ((if d.neg then js "-" else []) ++
      (digitsText ((digitList d.digits).take 1) ++
        (if (digitList d.digits).length = 1 then []
          else js "." ++ digitsText ((digitList d.digits).drop 1)) ++
        js "e" ++ (if n < 0 then js "-" else js "+") ++ digitsText (digitList n.natAbs)) ++ rest) =
      some (d, rest) := by
  have hhead := digitList_head d.digits hd0
  have hne := digitList_ne_nil d.digits hd0
  have hlt := digitList_lt d.digits
  have hval := ofDigitList_digitList d.digits
  have htext := parseExp_text n rest hn hr.digitsEnd
  set ds := digitList d.digits
  set tail := js "e" ++ (if n < 0 then js "-" else js "+") ++ digitsText (digitList n.natAbs) ++ rest
  have hlen : 0 < ds.length := List.length_pos_of_ne_nil hne
  have htakene : ds.take 1 ≠ [] := List.ne_nil_of_length_pos (by rw [List.length_take]; omega)
  have hlead : (ds.take 1).head? = some 0 → (ds.take 1).length ≤ 1 := fun _ => by
    rw [List.length_take]; omega
  have htailEnd : DigitsEnd tail := show isDigitUnit 0x65 = false by decide
  have hfrac : parseFrac ((if ds.length = 1 then [] else js "." ++ digitsText (ds.drop 1)) ++ tail) =
      some (ds.drop 1, tail) := by
    split_ifs with h1
    · rw [List.drop_eq_nil_of_le (by omega)]
      rfl
    · exact parseFrac_text _ _ (fun y hy => hlt y (List.mem_of_mem_drop hy))
        (List.ne_nil_of_length_pos (by rw [List.length_drop]; omega)) htailEnd
  have hstart : DigitsEnd ((if ds.length = 1 then [] else js "." ++ digitsText (ds.drop 1)) ++ tail) := by
    split_ifs
    · exact htailEnd
    · exact show isDigitUnit 0x2E = false by decide
  have hp := parseNumber_parts (ds.take 1) (ds.drop 1) n _ tail rest
    (fun y hy => hlt y (List.mem_of_mem_take hy)) htakene hlead hstart hfrac htext d.neg
  have he : n-((ds.drop 1).length : ℤ) = d.exp := by rw [List.length_drop]; omega
  rw [List.take_append_drop, hval, he, ofScaled_self d hd0] at hp
  rw [← hp]
  simp only [tail, List.append_assoc]

end Notations

/-- A printed number reads back as itself, `-0` as `0`. -/
theorem parseNumber_toText (d : Decimal) (rest : JsString) (hr : NumberEnd rest) :
    parseNumber (d.toText ++ rest) = some (d.posZero, rest) := by
  by_cases hd0 : d.digits = 0
  · simp only [Decimal.toText, Decimal.posZero, hd0, ↓reduceIte]
    have hp := parseNumber_parts [0] [] 0 rest rest rest (by simp) (by simp) (by simp)
      hr.digitsEnd (parseFrac_end hr) (parseExp_end hr) false
    have hz : ofDigitList ([0] ++ []) = 0 := rfl
    rwa [hz, Decimal.ofScaled_zero] at hp
  · have hlen : 0 < (digitList d.digits).length :=
      List.length_pos_of_ne_nil (digitList_ne_nil d.digits hd0)
    simp only [Decimal.toText, Decimal.posZero, hd0, ↓reduceIte, positionalText]
    set n : ℤ := (digitList d.digits).length+d.exp with hn
    by_cases h1 : (digitList d.digits).length ≤ n ∧ n ≤ 21
    · rw [if_pos h1]
      have hx : (n-(digitList d.digits).length).toNat = d.exp.toNat := by omega
      rw [hx]
      exact parseNumber_integer d hd0 rest hr d.exp.toNat (by omega)
    rw [if_neg h1]
    by_cases h2 : 0 < n ∧ n ≤ 21
    · rw [if_pos h2]
      exact parseNumber_point d hd0 rest hr n.toNat (by omega) (by omega) (by omega)
    rw [if_neg h2]
    by_cases h3 : -6 < n ∧ n ≤ 0
    · rw [if_pos h3]
      exact parseNumber_fraction d hd0 rest hr (-n).toNat (by omega)
    rw [if_neg h3]
    exact parseNumber_exponent d hd0 rest hr (n-1) (by omega) (by omega)

/-! ### The code units of a printed number -/

def isNumberUnit (c : CodeUnit) : Bool :=
  isDigitUnit c || c = 0x2D || c = 0x2B || c = 0x2E || c = 0x65

/-- Texts made of the units that numbers are printed with. -/
def NumberUnits (s : JsString) : Prop := ∀ c ∈ s, isNumberUnit c = true

instance (s : JsString) : Decidable (NumberUnits s) :=
  decidable_of_iff (s.all isNumberUnit = true) List.all_eq_true

theorem NumberUnits.append {a b : JsString} (ha : NumberUnits a) (hb : NumberUnits b) :
    NumberUnits (a ++ b) := fun c hc => (List.mem_append.mp hc).elim (ha c) (hb c)

theorem NumberUnits.ite {a b : JsString} (p : Prop) [Decidable p] (ha : NumberUnits a)
    (hb : NumberUnits b) : NumberUnits (if p then a else b) := by
  split_ifs
  · exact ha
  · exact hb

theorem NumberUnits.digits {ds : List ℕ} (hd : ∀ d ∈ ds, d < 10) : NumberUnits (digitsText ds) := by
  intro c hc
  obtain ⟨d, hmem, rfl⟩ := List.mem_map.mp hc
  simp only [isNumberUnit, isDigitUnit_digitUnit d (hd d hmem), Bool.true_or]

theorem NumberUnits.positional (ds : List ℕ) (n : ℤ) (hd : ∀ d ∈ ds, d < 10) :
    NumberUnits (positionalText ds n) := by
  have hpad (k : ℕ) : NumberUnits (digitsText (ds ++ List.replicate k 0)) :=
    .digits fun y hy => (List.mem_append.mp hy).elim (hd y) (zeros_lt k y)
  have hlead (k : ℕ) : NumberUnits (digitsText (List.replicate k 0 ++ ds)) :=
    .digits fun y hy => (List.mem_append.mp hy).elim (zeros_lt k y) (hd y)
  have htake (k : ℕ) : NumberUnits (digitsText (ds.take k)) :=
    .digits fun y hy => hd y (List.mem_of_mem_take hy)
  have hdrop (k : ℕ) : NumberUnits (digitsText (ds.drop k)) :=
    .digits fun y hy => hd y (List.mem_of_mem_drop hy)
  have hpoint : NumberUnits (js ".") := by decide
  have hfrac : NumberUnits (if ds.length = 1 then [] else js "." ++ digitsText (ds.drop 1)) :=
    .ite _ (by decide) (hpoint.append (hdrop 1))
  have hsign : NumberUnits (if n-1 < 0 then js "-" else js "+") := .ite _ (by decide) (by decide)
  have hexp : NumberUnits (digitsText (digitList (n-1).natAbs)) := .digits (digitList_lt _)
  exact .ite _ (hpad _) (.ite _ (((htake _).append hpoint).append (hdrop _))
    (.ite _ (.append (by decide) (hlead _))
      (((((htake 1).append hfrac).append (by decide)).append hsign).append hexp)))

theorem Decimal.toText_units (d : Decimal) : NumberUnits d.toText :=
  .ite _ (by decide) ((NumberUnits.ite _ (by decide) (by decide)).append
    (.positional _ _ (digitList_lt _)))

theorem Decimal.toText_ne_nil (d : Decimal) : d.toText ≠ [] := by
  -- an empty text would read as no number
  intro h
  have hp := parseNumber_toText d [] trivial
  have hn : parseNumber ([] ++ []) = none := by decide
  rw [h, hn] at hp
  cases hp

example : (Decimal.ofScaled true 1203 (-2)).toText = js "-12.03" := by decide

end Js
