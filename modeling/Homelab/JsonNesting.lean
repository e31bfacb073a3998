import Homelab.JsonParse

/-! The shape of JSON texts: a scanner for quotes and brackets, which every
parsed text leaves where it started. A text cut off at the front does not parse. -/
namespace Js

/-- What a property of texts needs so that every `jsonText` has it. -/
structure TextRule (P : JsString → Prop) : Prop where
  nil : P []
  append : ∀ {a b}, P a → P b → P (a ++ b)
  comma : P [0x2C]
  colon : P [0x3A]
  null : P (js "null")
  true : P (js "true")
  false : P (js "false")
  number : ∀ d : Decimal, P d.toText
  quote : ∀ s, P (quote s)
  array : ∀ {t}, P t → P (0x5B :: t ++ [0x5D])
  object : ∀ {t}, P t → P (0x7B :: t ++ [0x7D])

theorem TextRule.joinComma {P : JsString → Prop} (hP : TextRule P) :
    ∀ ts : List JsString, (∀ t ∈ ts, P t) → P (joinComma ts)
  | [], _ => hP.nil
  | [t], h => h t (List.mem_cons_self ..)
  | t :: u :: ts, h => by
    have hrest := hP.joinComma (u :: ts) (fun x hx => h x (List.mem_cons_of_mem _ hx))
    exact hP.append (h t (List.mem_cons_self ..)) (hP.append hP.comma hrest)

mutual
theorem TextRule.jsonText {P : JsString → Prop} (hP : TextRule P) : ∀ v : JsValue, P (jsonText v)
  | .undefined => hP.null
  | .null => hP.null
  | .bool Bool.true => hP.true
  | .bool Bool.false => hP.false
  | .num (.fin d) => hP.number d
  | .num .nan => hP.null
  | .num (.inf _) => hP.null
  | .str s => hP.quote s
  | .bigint _ => hP.nil
  | .function => hP.null
  | .symbol => hP.null
  | .arr es => hP.array (hP.joinComma _ (hP.elemTexts es))
  | .obj fs => hP.object (hP.joinComma _ (hP.fieldTexts fs))

theorem TextRule.elemTexts {P : JsString → Prop} (hP : TextRule P) :
    ∀ es : List JsValue, ∀ t ∈ elemTexts es, P t
  | [], _, ht => absurd ht List.not_mem_nil
  | v :: vs, t, ht => by
    rcases List.mem_cons.mp ht with rfl | ht
    · exact hP.jsonText v
    · exact hP.elemTexts vs t ht

theorem TextRule.fieldTexts {P : JsString → Prop} (hP : TextRule P) :
    ∀ fs : Fields, ∀ t ∈ fieldTexts fs, P t
  | [], _, ht => absurd ht List.not_mem_nil
  | (k, v) :: fs, t, ht => by
    simp only [Js.fieldTexts] at ht
    split_ifs at ht
    · exact hP.fieldTexts fs t ht
    · rcases List.mem_cons.mp ht with rfl | ht
      · exact hP.append (hP.quote k) (hP.append hP.colon (hP.jsonText v))
      · exact hP.fieldTexts fs t ht
end

/-! ### Printable, without line breaks and lone surrogates -/

/-- Code units below the surrogates. -/
def isBasic (c : CodeUnit) : Bool := c.toNat < 0xD800

theorem paired_of_basic {s : JsString} (h : ∀ c ∈ s, isBasic c = true) : Paired s := by
  induction s with
  | nil => exact .nil
  | cons c s ih =>
    have hc : c.toNat < 0xD800 := by simpa [isBasic] using h c (List.mem_cons_self ..)
    have hunit : Paired [c] := by
      apply Paired.unit <;> simp only [isHigh, isLow, Bool.and_eq_false_iff, decide_eq_false_iff_not] <;> omega
    exact hunit.append (ih fun x hx => h x (List.mem_cons_of_mem _ hx))

theorem hexUnit_facts : ∀ d < 0x10, isBasic (hexUnit d) = true ∧ hexUnit d ≠ 0x0A ∧
    hexUnit d ≠ 0x22 ∧ hexUnit d ≠ 0x5C := by decide

theorem unicodeEscape_forall (P : CodeUnit → Prop) (c : CodeUnit) (hslash : P 0x5C) (hu : P 0x75)
    (hhex : ∀ d < 0x10, P (hexUnit d)) : ∀ x ∈ unicodeEscape c, P x := by
  have hlt : c.toNat < 0x10000 := c.toNat_lt
  intro x hx
  simp only [unicodeEscape, List.mem_cons, List.not_mem_nil, or_false] at hx
  rcases hx with rfl | rfl | rfl | rfl | rfl | rfl
  · exact hslash
  · exact hu
  all_goals exact hhex _ (by omega)

theorem quoteUnit_paired (c : CodeUnit) : Paired (quoteUnit c) := by
  have hescape (e : CodeUnit) (he : isBasic e = true) : Paired [0x5C, e] := by
    apply paired_of_basic
    simp only [List.mem_cons, List.not_mem_nil, or_false]
    rintro x (rfl | rfl)
    · decide
    · exact he
  unfold quoteUnit
  split_ifs with h1 h2 h3 h4 h5 h6 h7 h8
  iterate 7 exact hescape _ (by decide)
  · exact paired_of_basic (unicodeEscape_forall _ c (by decide) (by decide)
      (fun d hd => (hexUnit_facts d hd).1))
  · simp only [Bool.or_eq_true, not_or, Bool.not_eq_true] at h8
    exact Paired.unit c h8.1.2 h8.2

theorem quoteBody_paired (s : JsString) : Paired (quoteBody s) := by
  induction s using quoteBody.induct with
  | case1 => exact .nil
  | case2 c => exact quoteUnit_paired c
  | case3 c d s hp ih =>
    simp only [quoteBody, hp, ↓reduceIte]
    rw [Bool.and_eq_true] at hp
    exact (Paired.pair c d hp.1 hp.2).append ih
  | case4 c d s hp ih =>
    simp only [quoteBody, hp, Bool.false_eq_true, ↓reduceIte]
    exact (quoteUnit_paired c).append ih

theorem numberUnits_basic {s : JsString} (h : NumberUnits s) : ∀ c ∈ s, isBasic c = true := by
  intro c hc
  have hu := h c hc
  simp only [isNumberUnit, isDigitUnit, Bool.or_eq_true, Bool.and_eq_true, decide_eq_true_eq] at hu
  rcases hu with (((⟨_, h2⟩ | rfl) | rfl) | rfl) | rfl
  · simp only [isBasic, decide_eq_true_eq]
    omega
  all_goals decide

/-- A JSON text can be written as UTF-8 without loss. -/
theorem jsonText_paired (v : JsValue) : Paired (jsonText v) := by
  have hbasic {s : JsString} (h : s.all isBasic = true) : Paired s :=
    paired_of_basic (List.all_eq_true.mp h)
  have hrule : TextRule Paired :=
    { nil := .nil
      append := .append
      comma := hbasic (by decide)
      colon := hbasic (by decide)
      null := hbasic (by decide)
      true := hbasic (by decide)
      false := hbasic (by decide)
      number := fun d => paired_of_basic (numberUnits_basic d.toText_units)
      quote := fun s => (((hbasic (s := [0x22]) (by decide)).append (quoteBody_paired s)).append
        (hbasic (by decide)))
      array := fun ht => (((hbasic (s := [0x5B]) (by decide)).append ht).append (hbasic (by decide)))
      object := fun ht => (((hbasic (s := [0x7B]) (by decide)).append ht).append
        (hbasic (by decide))) }
  exact hrule.jsonText v

def NoNewline (s : JsString) : Prop := 0x0A ∉ s

theorem quoteUnit_noNewline (c : CodeUnit) : NoNewline (quoteUnit c) := by
  unfold quoteUnit
  split_ifs with h1 h2 h3 h4 h5 h6 h7 h8
  iterate 7 exact show ¬ _ by decide
  · intro hm
    exact unicodeEscape_forall (· ≠ 0x0A) c (by decide) (by decide)
      (fun d hd => (hexUnit_facts d hd).2.1) _ hm rfl
  · intro hm
    exact h3 (List.mem_singleton.mp hm).symm

theorem NoNewline.append {a b : JsString} (ha : NoNewline a) (hb : NoNewline b) :
    NoNewline (a ++ b) := fun h => (List.mem_append.mp h).elim ha hb

theorem quoteBody_noNewline (s : JsString) : NoNewline (quoteBody s) := by
  induction s using quoteBody.induct with
  | case1 => exact List.not_mem_nil
  | case2 c => exact quoteUnit_noNewline c
  | case3 c d s hp ih =>
    simp only [quoteBody, hp, ↓reduceIte]
    rw [Bool.and_eq_true] at hp
    have hc : c ≠ 0x0A := by rintro rfl; exact absurd hp.1 (by decide)
    have hd : d ≠ 0x0A := by rintro rfl; exact absurd hp.2 (by decide)
    intro hm
    rcases List.mem_cons.mp hm with h | hm
    · exact hc h.symm
    · rcases List.mem_cons.mp hm with h | hm
      · exact hd h.symm
      · exact ih hm
  | case4 c d s hp ih =>
    simp only [quoteBody, hp, Bool.false_eq_true, ↓reduceIte]
    exact (quoteUnit_noNewline c).append ih

/-- A JSON text is one line. -/
theorem jsonText_noNewline (v : JsValue) : NoNewline (jsonText v) := by
  have hrule : TextRule NoNewline :=
    { nil := List.not_mem_nil
      append := .append
      comma := show ¬ _ by decide
      colon := show ¬ _ by decide
      null := show ¬ _ by decide
      true := show ¬ _ by decide
      false := show ¬ _ by decide
      number := fun d hm => absurd (d.toText_units _ hm) (by decide)
      quote := fun s => (NoNewline.append (a := [0x22]) (show ¬ _ by decide)
        (quoteBody_noNewline s)).append (show ¬ _ by decide)
      array := fun ht => (NoNewline.append (a := [0x5B]) (show ¬ _ by decide) ht).append
        (show ¬ _ by decide)
      object := fun ht => (NoNewline.append (a := [0x7B]) (show ¬ _ by decide) ht).append
        (show ¬ _ by decide) }
  exact hrule.jsonText v

/-! ### The scanner -/

/-- Outside strings, inside one, or after its backslash, at a bracket depth;
`dead` after a backslash outside strings. -/
inductive Scan
  | out (depth : ℤ)
  | str (depth : ℤ)
  | esc (depth : ℤ)
  | dead
deriving DecidableEq

def Scan.step : Scan → CodeUnit → Scan
  | .out d, c =>
    if c = 0x22 then .str d
    else if c = 0x5C then .dead
    else if c = 0x5B ∨ c = 0x7B then .out (d+1)
    else if c = 0x5D ∨ c = 0x7D then .out (d-1)
    else .out d
  | .str d, c => if c = 0x22 then .out d else if c = 0x5C then .esc d else .str d
  | .esc d, _ => .str d
  | .dead, _ => .dead

def Scan.run (st : Scan) (s : JsString) : Scan := s.foldl Scan.step st

theorem Scan.run_append (st : Scan) (a b : JsString) : st.run (a ++ b) = (st.run a).run b :=
  List.foldl_append

theorem Scan.run_dead (s : JsString) : Scan.dead.run s = .dead := by
  induction s with
  | nil => rfl
  | cons c s ih => exact ih

/-- Code units the scanner passes over outside strings. -/
def isPlain (c : CodeUnit) : Bool :=
  c != 0x22 && c != 0x5C && c != 0x5B && c != 0x7B && c != 0x5D && c != 0x7D

theorem Scan.step_plain (d : ℤ) (c : CodeUnit) (h : isPlain c = true) : (Scan.out d).step c = .out d := by
  simp only [isPlain, Bool.and_eq_true, bne_iff_ne] at h
  obtain ⟨⟨⟨⟨⟨h1, h2⟩, h3⟩, h4⟩, h5⟩, h6⟩ := h
  simp only [Scan.step, h1, h2, h3, h4, h5, h6, or_self, ↓reduceIte]

theorem Scan.run_plain (d : ℤ) (s : JsString) (h : ∀ c ∈ s, isPlain c = true) :
    (Scan.out d).run s = .out d := by
  induction s with
  | nil => rfl
  | cons c s ih =>
    have hstep := Scan.step_plain d c (h c (List.mem_cons_self ..))
    change ((Scan.out d).step c).run s = _
    rw [hstep]
    exact ih (fun x hx => h x (List.mem_cons_of_mem _ hx))

/-- The scanner does not see at which depth it started. -/
def Scan.shift (k : ℤ) : Scan → Scan
  | .out d => .out (d+k)
  | .str d => .str (d+k)
  | .esc d => .esc (d+k)
  | .dead => .dead

theorem Scan.shift_step (k : ℤ) (st : Scan) (c : CodeUnit) :
    (st.shift k).step c = (st.step c).shift k := by
  cases st with
  | out d =>
    simp only [Scan.shift, Scan.step]
    split_ifs <;> simp only [Scan.out.injEq] <;> omega
  | str d =>
    simp only [Scan.shift, Scan.step]
    split_ifs <;> rfl
  | esc d => rfl
  | dead => rfl

theorem Scan.shift_run (k : ℤ) (st : Scan) (s : JsString) :
    (st.shift k).run s = (st.run s).shift k := by
  induction s generalizing st with
  | nil => rfl
  | cons c s ih =>
    change ((st.shift k).step c).run s = ((st.step c).run s).shift k
    rw [Scan.shift_step, ih]

/-- Two scans of one text of which exactly one is inside a string, or one is dead. -/
def Scan.Opposed : Scan → Scan → Prop
  | .out _, .str _ => True
  | .str _, .out _ => True
  | .dead, _ => True
  | _, .dead => True
  | _, _ => False

theorem Scan.opposed_step (a b : Scan) (c : CodeUnit) (h : a.Opposed b) :
    (a.step c).Opposed (b.step c) := by
  have hdead (st : Scan) : st.Opposed .dead := by cases st <;> trivial
  cases a <;> cases b <;> try cases h
  all_goals simp only [Scan.step]
  all_goals first | trivial | exact hdead _ | (split_ifs <;> trivial)

theorem Scan.opposed_run (a b : Scan) (s : JsString) (h : a.Opposed b) :
    (a.run s).Opposed (b.run s) := by
  induction s generalizing a b with
  | nil => exact h
  | cons c s ih => exact ih _ _ (Scan.opposed_step a b c h)

/-! ### What the parser consumes is level -/

/-- A text that the scanner leaves at the depth it entered, outside strings. -/
def Level (s : JsString) : Prop := ∀ d, (Scan.out d).run s = .out d

theorem Level.append {a b : JsString} (ha : Level a) (hb : Level b) : Level (a ++ b) := by
  intro d
  rw [Scan.run_append, ha d, hb d]

theorem Level.plain {s : JsString} (h : ∀ c ∈ s, isPlain c = true) : Level s :=
  fun d => Scan.run_plain d s h

theorem Level.array {s : JsString} (h : Level s) : Level (0x5B :: s ++ [0x5D]) := by
  intro d
  rw [Scan.run_append]
  change (((Scan.out d).step 0x5B).run s).step 0x5D = _
  have h1 : (Scan.out d).step 0x5B = .out (d+1) := rfl
  rw [h1, h (d+1)]
  change Scan.out (d+1-1) = _
  rw [add_sub_cancel_right]

theorem Level.object {s : JsString} (h : Level s) : Level (0x7B :: s ++ [0x7D]) := by
  intro d
  rw [Scan.run_append]
  change (((Scan.out d).step 0x7B).run s).step 0x7D = _
  have h1 : (Scan.out d).step 0x7B = .out (d+1) := rfl
  rw [h1, h (d+1)]
  change Scan.out (d+1-1) = _
  rw [add_sub_cancel_right]

/-- `rest` is `s` without a plain prefix. -/
def PlainPrefix (s rest : JsString) : Prop := ∃ pre, s = pre ++ rest ∧ ∀ c ∈ pre, isPlain c = true

theorem PlainPrefix.refl (s : JsString) : PlainPrefix s s :=
  ⟨[], rfl, fun _ h => absurd h List.not_mem_nil⟩

theorem PlainPrefix.cons {c : CodeUnit} {s rest : JsString} (hc : isPlain c = true)
    (h : PlainPrefix s rest) : PlainPrefix (c :: s) rest := by
  obtain ⟨pre, rfl, hp⟩ := h
  refine ⟨c :: pre, rfl, fun x hx => ?_⟩
  rcases List.mem_cons.mp hx with rfl | hx
  · exact hc
  · exact hp x hx

theorem PlainPrefix.trans {a b c : JsString} (hab : PlainPrefix a b) (hbc : PlainPrefix b c) :
    PlainPrefix a c := by
  obtain ⟨p, rfl, hp⟩ := hab
  obtain ⟨q, rfl, hq⟩ := hbc
  exact ⟨p ++ q, (List.append_assoc ..).symm, fun x hx => (List.mem_append.mp hx).elim (hp x) (hq x)⟩

theorem skipSpace_consumes (s : JsString) : PlainPrefix s (skipSpace s) := by
  induction s with
  | nil => exact .refl _
  | cons c s ih =>
    simp only [skipSpace]
    split_ifs with h
    · refine .cons ?_ ih
      simp only [isSpace, Bool.or_eq_true, decide_eq_true_eq] at h
      rcases h with ((rfl | rfl) | rfl) | rfl <;> decide
    · exact .refl _

theorem nextUnit_consumes {s rest : JsString} {c : CodeUnit} (h : nextUnit s = some (c, rest)) :
    PlainPrefix s (c :: rest) := by
  have hs := skipSpace_consumes s
  unfold nextUnit at h
  split at h
  · cases h
  · next c' rest' heq =>
    cases h
    rwa [heq] at hs

theorem isPlain_digit (c : CodeUnit) (h : isDigitUnit c = true) : isPlain c = true := by
  have hr : 48 ≤ c.toNat ∧ c.toNat ≤ 57 := by simpa [isDigitUnit] using h
  simp only [isPlain, Bool.and_eq_true, bne_iff_ne]
  refine ⟨⟨⟨⟨⟨?_, ?_⟩, ?_⟩, ?_⟩, ?_⟩, ?_⟩ <;> (rintro rfl; revert hr; decide)

theorem spanDigits_consumes (s : JsString) : PlainPrefix s (spanDigits s).2 := by
  induction s with
  | nil => exact .refl _
  | cons c s ih =>
    simp only [spanDigits]
    split_ifs with h
    · exact .cons (isPlain_digit c h) ih
    · exact .refl _

theorem parseMinus_consumes (s : JsString) : PlainPrefix s (parseMinus s).2 := by
  cases s with
  | nil => exact .refl _
  | cons c s =>
    simp only [parseMinus]
    split_ifs with h
    · subst h
      exact .cons (by decide) (.refl _)
    · exact .refl _

theorem parseFrac_consumes {s rest : JsString} {fp : List ℕ} (h : parseFrac s = some (fp, rest)) :
    PlainPrefix s rest := by
  cases s with
  | nil =>
    cases h
    exact .refl _
  | cons c s =>
    simp only [parseFrac] at h
    split_ifs at h with hc h0
    · subst hc
      have hs := spanDigits_consumes s
      rw [Option.some.inj h] at hs
      exact .cons (by decide) hs
    · cases h
      exact .refl _

theorem parseExpDigits_consumes {neg : Bool} {s rest : JsString} {e : ℤ}
    (h : parseExpDigits neg s = some (e, rest)) : PlainPrefix s rest := by
  unfold parseExpDigits at h
  split at h
  · cases h
  · cases h
    exact spanDigits_consumes s

theorem parseExp_consumes {s rest : JsString} {e : ℤ} (h : parseExp s = some (e, rest)) :
    PlainPrefix s rest := by
  cases s with
  | nil =>
    cases h
    exact .refl _
  | cons c s =>
    simp only [parseExp] at h
    split_ifs at h with hc
    · refine .cons (by rcases hc with rfl | rfl <;> decide) ?_
      cases s with
      | nil => cases h
      | cons d s =>
        dsimp only at h
        split_ifs at h with h1 h2
        · exact .cons (by rw [h1]; decide) (parseExpDigits_consumes h)
        · exact .cons (by rw [h2]; decide) (parseExpDigits_consumes h)
        · exact parseExpDigits_consumes h
    · cases h
      exact .refl _

theorem parseNumber_consumes {s rest : JsString} {d : Decimal} (h : parseNumber s = some (d, rest)) :
    PlainPrefix s rest := by
  have hm := parseMinus_consumes s
  have hi := spanDigits_consumes (parseMinus s).2
  unfold parseNumber at h
  dsimp only at h
  split_ifs at h
  simp only [Option.bind_eq_bind, Option.bind_eq_some_iff, Option.pure_def, Option.some.injEq,
    Prod.exists, Prod.mk.injEq] at h
  obtain ⟨fp, s3, hf, e, s4, he, _, rfl⟩ := h
  exact ((hm.trans hi).trans (parseFrac_consumes hf)).trans (parseExp_consumes he)

/-- A string literal is consumed up to and with its closing quote. -/
theorem parseStringFrom_consumes (st : StringState) (s t rest : JsString)
    (h : parseStringFrom st s = some (t, rest)) :
    ∃ pre, s = pre ++ rest ∧ ∀ d,
      (match st with | .escape => Scan.esc d | _ => Scan.str d).run pre = .out d := by
  induction s generalizing st t with
  | nil => cases st <;> cases h
  | cons c s ih =>
    cases st with
    | plain =>
      simp only [parseStringFrom] at h
      split_ifs at h with h1 h2 h3
      · cases h
        refine ⟨[c], rfl, fun d => ?_⟩
        simp only [Scan.run, List.foldl_cons, List.foldl_nil, Scan.step, h1, ↓reduceIte]
      · obtain ⟨pre, rfl, hp⟩ := ih .escape t h
        refine ⟨c :: pre, rfl, fun d => ?_⟩
        change ((Scan.str d).step c).run pre = _
        simp only [Scan.step, h2, ↓reduceIte]
        exact hp d
      · simp only [Option.map_eq_some_iff, Prod.exists, Prod.mk.injEq] at h
        obtain ⟨t', r, hs, _, rfl⟩ := h
        obtain ⟨pre, rfl, hp⟩ := ih .plain t' hs
        refine ⟨c :: pre, rfl, fun d => ?_⟩
        change ((Scan.str d).step c).run pre = _
        simp only [Scan.step, h1, h2, ↓reduceIte]
        exact hp d
    | escape =>
      simp only [parseStringFrom] at h
      split_ifs at h with h1
      · obtain ⟨pre, rfl, hp⟩ := ih (.hex 3 0) t h
        exact ⟨c :: pre, rfl, hp⟩
      · split at h
        · simp only [Option.map_eq_some_iff, Prod.exists, Prod.mk.injEq] at h
          obtain ⟨t', r, hs, _, rfl⟩ := h
          obtain ⟨pre, rfl, hp⟩ := ih .plain t' hs
          exact ⟨c :: pre, rfl, hp⟩
        · cases h
    | hex owed value =>
      -- a hexadecimal digit is neither a quote nor a backslash
      have hstep (x : ℕ) (hx : hexValue c = some x) (d : ℤ) : (Scan.str d).step c = .str d := by
        have h1 : c ≠ 0x22 := by rintro rfl; cases hx
        have h2 : c ≠ 0x5C := by rintro rfl; cases hx
        simp only [Scan.step, h1, h2, ↓reduceIte]
      simp only [parseStringFrom] at h
      split at h
      · next x _ hx =>
        simp only [Option.map_eq_some_iff, Prod.exists, Prod.mk.injEq] at h
        obtain ⟨t', r, hs, _, rfl⟩ := h
        obtain ⟨pre, rfl, hp⟩ := ih .plain t' hs
        refine ⟨c :: pre, rfl, fun d => ?_⟩
        change ((Scan.str d).step c).run pre = _
        rw [hstep _ hx]
        exact hp d
      · next x n hx =>
        obtain ⟨pre, rfl, hp⟩ := ih _ t h
        refine ⟨c :: pre, rfl, fun d => ?_⟩
        change ((Scan.str d).step c).run pre = _
        rw [hstep _ hx]
        exact hp d
      · cases h

/-- `rest` is `s` without a level prefix. -/
def LevelPrefix (s rest : JsString) : Prop := ∃ pre, s = pre ++ rest ∧ Level pre

theorem PlainPrefix.level {s rest : JsString} (h : PlainPrefix s rest) : LevelPrefix s rest := by
  obtain ⟨pre, hs, hp⟩ := h
  exact ⟨pre, hs, .plain hp⟩

theorem LevelPrefix.trans {a b c : JsString} (hab : LevelPrefix a b) (hbc : LevelPrefix b c) :
    LevelPrefix a c := by
  obtain ⟨p, rfl, hp⟩ := hab
  obtain ⟨q, rfl, hq⟩ := hbc
  exact ⟨p ++ q, (List.append_assoc ..).symm, hp.append hq⟩

theorem LevelPrefix.plainUnit {c : CodeUnit} {s : JsString} (hc : isPlain c = true) :
    LevelPrefix (c :: s) s :=
  (PlainPrefix.cons hc (.refl s)).level

theorem parseStringBody_consumes {s t rest : JsString} (h : parseStringBody s = some (t, rest)) :
    LevelPrefix (0x22 :: s) rest := by
  obtain ⟨pre, rfl, hp⟩ := parseStringFrom_consumes .plain s t rest h
  exact ⟨0x22 :: pre, rfl, fun d => hp d⟩

theorem LevelPrefix.array {s rest : JsString} (h : LevelPrefix s (0x5D :: rest)) :
    LevelPrefix (0x5B :: s) rest := by
  obtain ⟨pre, rfl, hp⟩ := h
  exact ⟨0x5B :: pre ++ [0x5D], by simp, hp.array⟩

theorem LevelPrefix.object {s rest : JsString} (h : LevelPrefix s (0x7D :: rest)) :
    LevelPrefix (0x7B :: s) rest := by
  obtain ⟨pre, rfl, hp⟩ := h
  exact ⟨0x7B :: pre ++ [0x7D], by simp, hp.object⟩

theorem parseWord_consumes {word s rest : JsString} {v w : JsValue} {c : CodeUnit}
    (hc : isPlain c = true) (hw : ∀ x ∈ word, isPlain x = true)
    (h : parseWord word v s = some (w, rest)) : LevelPrefix (c :: s) rest := by
  unfold parseWord at h
  split_ifs at h with hp
  obtain ⟨t, rfl⟩ := hp
  simp only [List.drop_left, Option.some.injEq, Prod.mk.injEq] at h
  obtain ⟨_, rfl⟩ := h
  exact (LevelPrefix.plainUnit hc).trans ⟨word, rfl, .plain hw⟩

/-- What the parser consumes is level, up to the bracket that closes a list of
elements or members. -/
theorem parse_consumes (fuel : ℕ) :
    (∀ s v rest, parseValue fuel s = some (v, rest) → LevelPrefix s rest) ∧
    (∀ s es rest, parseElements fuel s = some (es, rest) → LevelPrefix s (0x5D :: rest)) ∧
    (∀ s fs rest, parseMembers fuel s = some (fs, rest) → LevelPrefix s (0x7D :: rest)) := by
  -- induction on the fuel of the three parsers at once; a bracket that is opened is closed by what follows it
  induction fuel with
  | zero => refine ⟨?_, ?_, ?_⟩ <;> (intro _ _ _ h; cases h)
  | succ fuel ih =>
    obtain ⟨ihValue, ihElements, ihMembers⟩ := ih
    refine ⟨fun s v rest h => ?_, fun s es rest h => ?_, fun s fs rest h => ?_⟩
    · simp only [parseValue, Option.bind_eq_bind, Option.bind_eq_some_iff, Prod.exists] at h
      obtain ⟨c, r, hc, h⟩ := h
      refine (nextUnit_consumes hc).level.trans ?_
      split_ifs at h with h1 h2 h3 h4 h5 h6
      · simp only [Option.bind_eq_some_iff, Prod.exists] at h
        obtain ⟨d, r', hd, h⟩ := h
        subst h1
        split_ifs at h with h7
        · cases h
          subst h7
          exact (nextUnit_consumes hd).level.object
        · simp only [Option.bind_eq_some_iff, Prod.exists] at h
          obtain ⟨entries, r2, hm, h⟩ := h
          cases h
          exact (ihMembers _ _ _ hm).object
      · simp only [Option.bind_eq_some_iff, Prod.exists] at h
        obtain ⟨d, r', hd, h⟩ := h
        subst h2
        split_ifs at h with h7
        · cases h
          subst h7
          exact (nextUnit_consumes hd).level.array
        · simp only [Option.bind_eq_some_iff, Prod.exists] at h
          obtain ⟨es, r2, hm, h⟩ := h
          cases h
          exact (ihElements _ _ _ hm).array
      · simp only [Option.bind_eq_some_iff, Prod.exists] at h
        obtain ⟨t, r', ht, h⟩ := h
        cases h
        subst h3
        exact parseStringBody_consumes ht
      · subst h4
        exact parseWord_consumes (by decide) (List.all_eq_true.mp (by decide)) h
      · subst h5
        exact parseWord_consumes (by decide) (List.all_eq_true.mp (by decide)) h
      · subst h6
        exact parseWord_consumes (by decide) (List.all_eq_true.mp (by decide)) h
      · simp only [Option.bind_eq_some_iff, Prod.exists] at h
        obtain ⟨d, r', hd, h⟩ := h
        cases h
        exact (parseNumber_consumes hd).level
    · simp only [parseElements, Option.bind_eq_bind, Option.bind_eq_some_iff, Prod.exists] at h
      obtain ⟨v, s1, hv, c, s2, hc, h⟩ := h
      have hval := (ihValue _ _ _ hv).trans (nextUnit_consumes hc).level
      split_ifs at h with h1 h2
      · simp only [Option.bind_eq_some_iff, Prod.exists] at h
        obtain ⟨vs, r, hvs, h⟩ := h
        cases h
        subst h1
        exact (hval.trans (.plainUnit (by decide))).trans (ihElements _ _ _ hvs)
      · cases h
        exact h2 ▸ hval
    · simp only [parseMembers, Option.bind_eq_bind, Option.bind_eq_some_iff, Prod.exists] at h
      obtain ⟨c, s0, hc, h⟩ := h
      split_ifs at h with h1
      simp only [Option.bind_eq_some_iff, Prod.exists] at h
      obtain ⟨k, s1, hk, d, s2, hd, h⟩ := h
      split_ifs at h with h2
      simp only [Option.bind_eq_some_iff, Prod.exists] at h
      obtain ⟨v, s3, hv, e, s4, he, h⟩ := h
      subst h1 h2
      have hkey := ((nextUnit_consumes hc).level.trans (parseStringBody_consumes hk)).trans
        (nextUnit_consumes hd).level
      have hval := ((hkey.trans (.plainUnit (by decide))).trans (ihValue _ _ _ hv)).trans
        (nextUnit_consumes he).level
      split_ifs at h with h3 h4
      · simp only [Option.bind_eq_some_iff, Prod.exists] at h
        obtain ⟨fs', r, hfs, h⟩ := h
        cases h
        subst h3
        exact (hval.trans (.plainUnit (by decide))).trans (ihMembers _ _ _ hfs)
      · cases h
        exact h4 ▸ hval

/-- A text that parses is level. -/
theorem jsonParse_level {s : JsString} {v : JsValue} (h : jsonParse s = some v) : Level s := by
  unfold jsonParse at h
  split at h
  · next v' rest hp =>
    split_ifs at h with hsp
    have hrest := (skipSpace_consumes rest).level
    rw [hsp] at hrest
    obtain ⟨pre, hs, hl⟩ := ((parse_consumes _).1 _ _ _ hp).trans hrest
    rwa [hs, List.append_nil]
  · cases h

/-! ### What the printer writes is nested -/

/-- `P` holds of every state on the way from `st` through a text. -/
def Scan.Along (P : Scan → Prop) : Scan → JsString → Prop
  | st, [] => P st
  | st, c :: s => P st ∧ Scan.Along P (st.step c) s

theorem Scan.Along.append {P : Scan → Prop} {st : Scan} {a b : JsString} (ha : Scan.Along P st a)
    (hb : Scan.Along P (st.run a) b) : Scan.Along P st (a ++ b) := by
  induction a generalizing st with
  | nil => exact hb
  | cons c a ih => exact ⟨ha.1, ih ha.2 hb⟩

theorem Scan.Along.cut {P : Scan → Prop} {st : Scan} {p q : JsString}
    (h : Scan.Along P st (p ++ q)) : P (st.run p) := by
  induction p generalizing st with
  | nil =>
    cases q with
    | nil => exact h
    | cons c q => exact h.1
  | cons c p ih => exact ih h.2

theorem Scan.Along.mono {P Q : Scan → Prop} (hPQ : ∀ st, P st → Q st) {st : Scan} {s : JsString}
    (h : Scan.Along P st s) : Scan.Along Q st s := by
  induction s generalizing st with
  | nil => exact hPQ _ h
  | cons c s ih => exact ⟨hPQ _ h.1, ih h.2⟩

/-- The scanner is alive and at depth at least `d`. -/
def Scan.AtLeast (d : ℤ) : Scan → Prop
  | .out e => d ≤ e
  | .str e => d ≤ e
  | .esc e => d ≤ e
  | .dead => False

theorem Scan.AtLeast.mono {d e : ℤ} (h : d ≤ e) : ∀ st, Scan.AtLeast e st → Scan.AtLeast d st
  | .out _, hst => le_trans h hst
  | .str _, hst => le_trans h hst
  | .esc _, hst => le_trans h hst
  | .dead, hst => hst

/-- A level text that never goes below the depth it starts at. -/
def Nested (s : JsString) : Prop := Level s ∧ ∀ d, Scan.Along (Scan.AtLeast d) (.out d) s

theorem Nested.append {a b : JsString} (ha : Nested a) (hb : Nested b) : Nested (a ++ b) :=
  ⟨ha.1.append hb.1, fun d => (ha.2 d).append ((ha.1 d).symm ▸ hb.2 d)⟩

theorem Nested.plain {s : JsString} (h : ∀ c ∈ s, isPlain c = true) : Nested s := by
  refine ⟨.plain h, fun d => ?_⟩
  induction s with
  | nil => exact le_refl d
  | cons c s ih =>
    refine ⟨le_refl d, ?_⟩
    rw [Scan.step_plain d c (h c (List.mem_cons_self ..))]
    exact ih fun x hx => h x (List.mem_cons_of_mem _ hx)

theorem Nested.array {s : JsString} (h : Nested s) : Nested (0x5B :: s ++ [0x5D]) := by
  refine ⟨h.1.array, fun d => ⟨le_refl d, ?_⟩⟩
  change Scan.Along _ (.out (d+1)) (s ++ [0x5D])
  refine ((h.2 (d+1)).mono (Scan.AtLeast.mono (by omega))).append ?_
  rw [h.1 (d+1)]
  exact ⟨show d ≤ d+1 by omega, show d ≤ d+1-1 by omega⟩

theorem Nested.object {s : JsString} (h : Nested s) : Nested (0x7B :: s ++ [0x7D]) := by
  refine ⟨h.1.object, fun d => ⟨le_refl d, ?_⟩⟩
  change Scan.Along _ (.out (d+1)) (s ++ [0x7D])
  refine ((h.2 (d+1)).mono (Scan.AtLeast.mono (by omega))).append ?_
  rw [h.1 (d+1)]
  exact ⟨show d ≤ d+1 by omega, show d ≤ d+1-1 by omega⟩

/-- The scanner is inside a string that began at depth `d`. -/
def Scan.InString (d : ℤ) : Scan → Prop
  | .str e => e = d
  | .esc e => e = d
  | .out _ => False
  | .dead => False

theorem Scan.InString.atLeast {d : ℤ} : ∀ st, Scan.InString d st → Scan.AtLeast d st
  | .str _, h => h.ge
  | .esc _, h => h.ge

/-- A text that the scanner reads as the inside of a string. -/
def Quoted (s : JsString) : Prop :=
  ∀ d, (Scan.str d).run s = .str d ∧ Scan.Along (Scan.AtLeast d) (.str d) s

/-- A text that does not leave the string it is read in. -/
def Inside (s : JsString) : Prop :=
  ∀ d, (Scan.str d).run s = .str d ∧ Scan.Along (Scan.InString d) (.str d) s

theorem Inside.quoted {s : JsString} (h : Inside s) : Quoted s :=
  fun d => ⟨(h d).1, (h d).2.mono Scan.InString.atLeast⟩

theorem Inside.append {a b : JsString} (ha : Inside a) (hb : Inside b) : Inside (a ++ b) := by
  intro d
  have hrun := (ha d).1
  refine ⟨?_, (ha d).2.append (hrun.symm ▸ (hb d).2)⟩
  rw [Scan.run_append, hrun, (hb d).1]

theorem Inside.unit {c : CodeUnit} (h1 : c ≠ 0x22) (h2 : c ≠ 0x5C) : Inside [c] := by
  intro d
  have hstep : (Scan.str d).step c = .str d := by simp only [Scan.step, h1, h2, ↓reduceIte]
  refine ⟨hstep, rfl, ?_⟩
  rw [hstep]
  exact rfl

theorem Inside.escaped (c : CodeUnit) : Inside [0x5C, c] :=
  fun _ => ⟨rfl, rfl, rfl, rfl⟩

theorem Inside.of_forall {s : JsString} (h : ∀ c ∈ s, c ≠ 0x22 ∧ c ≠ 0x5C) : Inside s := by
  induction s with
  | nil => exact fun d => ⟨rfl, rfl⟩
  | cons c s ih =>
    have hc := h c (List.mem_cons_self ..)
    exact (Inside.unit hc.1 hc.2).append (ih fun x hx => h x (List.mem_cons_of_mem _ hx))

theorem unicodeEscape_inside (c : CodeUnit) : Inside (unicodeEscape c) := by
  have hlt : c.toNat < 0x10000 := c.toNat_lt
  refine (Inside.escaped 0x75).append (.of_forall fun x hx => ?_)
  simp only [List.mem_cons, List.not_mem_nil, or_false] at hx
  rcases hx with rfl | rfl | rfl | rfl
  all_goals exact (hexUnit_facts _ (by omega)).2.2

theorem quoteUnit_inside (c : CodeUnit) : Inside (quoteUnit c) := by
  unfold quoteUnit
  split_ifs with h1 h2 h3 h4 h5 h6 h7 h8
  iterate 7 exact .escaped _
  · exact unicodeEscape_inside c
  · exact .unit h6 h7

theorem quoteBody_inside (s : JsString) : Inside (quoteBody s) := by
  induction s using quoteBody.induct with
  | case1 => exact fun d => ⟨rfl, rfl⟩
  | case2 c => exact quoteUnit_inside c
  | case3 c d s hp ih =>
    simp only [quoteBody, hp, ↓reduceIte]
    rw [Bool.and_eq_true] at hp
    refine Inside.append (a := [c, d]) (.of_forall fun x hx => ?_) ih
    simp only [List.mem_cons, List.not_mem_nil, or_false] at hx
    constructor
    all_goals
      rintro rfl
      rcases hx with h | h
      · rw [← h] at hp
        exact absurd hp.1 (by decide)
      · rw [← h] at hp
        exact absurd hp.2 (by decide)
  | case4 c d s hp ih =>
    simp only [quoteBody, hp, Bool.false_eq_true, ↓reduceIte]
    exact (quoteUnit_inside c).append ih

theorem quoteBody_quoted (s : JsString) : Quoted (quoteBody s) := (quoteBody_inside s).quoted

theorem quote_nested (s : JsString) : Nested (quote s) := by
  have hbody := quoteBody_quoted s
  refine ⟨fun d => ?_, fun d => ⟨le_refl d, ?_⟩⟩
  · change (Scan.str d).run (quoteBody s ++ [0x22]) = _
    rw [Scan.run_append, (hbody d).1]
    rfl
  · change Scan.Along _ (.str d) (quoteBody s ++ [0x22])
    refine (hbody d).2.append ?_
    rw [(hbody d).1]
    exact ⟨le_refl d, le_refl d⟩

theorem numberUnits_plain {s : JsString} (h : NumberUnits s) : ∀ c ∈ s, isPlain c = true := by
  intro c hc
  have hu := h c hc
  simp only [isPlain, Bool.and_eq_true, bne_iff_ne]
  refine ⟨⟨⟨⟨⟨?_, ?_⟩, ?_⟩, ?_⟩, ?_⟩, ?_⟩ <;> (rintro rfl; revert hu; decide)

theorem nestedRule : TextRule Nested where
  nil := ⟨fun _ => rfl, fun d => le_refl d⟩
  append := .append
  comma := .plain (List.all_eq_true.mp (by decide))
  colon := .plain (List.all_eq_true.mp (by decide))
  null := .plain (List.all_eq_true.mp (by decide))
  true := .plain (List.all_eq_true.mp (by decide))
  false := .plain (List.all_eq_true.mp (by decide))
  number := fun d => .plain (numberUnits_plain d.toText_units)
  quote := quote_nested
  array := .array
  object := .object

/-- The text of an object, cut off at the front, does not parse. -/
theorem jsonParse_suffix {fs : Fields} {p q : JsString} (h : jsonText (.obj fs) = p ++ q)
    (hp : p ≠ []) : jsonParse q = none := by
  by_contra hne
  obtain ⟨v, hv⟩ := Option.ne_none_iff_exists'.mp hne
  have hq := jsonParse_level hv
  have hwhole := (nestedRule.jsonText (.obj fs)).1 0
  rw [h, Scan.run_append] at hwhole
  obtain ⟨c, p', rfl⟩ := List.exists_cons_of_ne_nil hp
  have hinner := nestedRule.joinComma _ (nestedRule.fieldTexts fs)
  obtain ⟨rfl, hrest⟩ : c = 0x7B ∧ p' ++ q = joinComma (fieldTexts fs) ++ [0x7D] := by
    simp only [jsonText, List.cons_append, List.cons.injEq] at h
    exact ⟨h.1.symm, h.2.symm⟩
  rcases List.eq_nil_or_concat q with rfl | ⟨q', e, rfl⟩
  · cases hv
  have hpre : p' ++ q' = joinComma (fieldTexts fs) := by
    rw [List.concat_eq_append, ← List.append_assoc] at hrest
    exact (List.append_inj' hrest rfl).1
  -- the cut is inside the object's braces
  have hdepth : Scan.AtLeast 1 ((Scan.out 1).run p') := (hpre.symm ▸ hinner.2 1).cut
  change (((Scan.out 1).run p').run (q'.concat e)) = .out 0 at hwhole
  generalize hst : (Scan.out 1).run p' = st at hdepth hwhole
  generalize q'.concat e = t at hq hwhole hv
  cases st with
  | out d =>
    rw [hq d] at hwhole
    cases hwhole
    exact absurd (show (1 : ℤ) ≤ 0 from hdepth) (by decide)
  | str d =>
    have hopp := Scan.opposed_run (.str d) (.out 0) t trivial
    rw [hwhole, hq 0] at hopp
    exact hopp
  | esc d =>
    cases t with
    | nil => cases hv
    | cons x t =>
      have hx := hq 0
      change (Scan.str d).run t = .out 0 at hwhole
      change ((Scan.out 0).step x).run t = .out 0 at hx
      by_cases h1 : x = 0x22
      · subst h1
        have hshift := Scan.shift_run d (.str 0) t
        change (Scan.str (0+d)).run t = ((Scan.str 0).run t).shift d at hshift
        have hx' : (Scan.str 0).run t = .out 0 := hx
        rw [hx', zero_add, hwhole] at hshift
        simp only [Scan.shift, Scan.out.injEq, zero_add] at hshift
        subst hshift
        exact absurd (show (1 : ℤ) ≤ 0 from hdepth) (by decide)
      · by_cases h2 : x = 0x5C
        · subst h2
          have hx' : Scan.dead.run t = .out 0 := hx
          rw [Scan.run_dead] at hx'
          cases hx'
        · have hout : ∃ e, (Scan.out 0).step x = .out e := by
            simp only [Scan.step, h1, h2, ↓reduceIte]
            split_ifs <;> exact ⟨_, rfl⟩
          obtain ⟨e, he⟩ := hout
          have hopp := Scan.opposed_run (.str d) (.out e) t trivial
          rw [he] at hx
          rw [hwhole, hx] at hopp
          exact hopp
  | dead => exact hdepth

/-- A text that starts with a replacement character does not parse. -/
theorem jsonParse_replacement (s : JsString) : jsonParse (0xFFFD :: s) = none := by
  have hnumber : parseNumber (0xFFFD :: s) = none := rfl
  have hvalue (fuel : ℕ) : parseValue (fuel+1) (0xFFFD :: s) = none := by
    simp only [parseValue, nextUnit_cons 0xFFFD s (by decide), Option.bind_eq_bind,
      Option.bind_some, hnumber, Option.bind_none]
    rfl
  simp only [jsonParse, hvalue]

end Js
