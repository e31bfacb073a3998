import Homelab.JsNumberText

/-! Texts and bytes: UTF-16 strings, UTF-8 files, and the replacement decoder
that a reader of an arbitrary byte window runs. -/
namespace Js

/-- The replacement character. -/
def replacement : Char := '\uFFFD'

/-- UTF-16 encoding of one scalar value. -/
def utf16 (c : Char) : JsString :=
  if c.toNat < 0x10000 then [c.toNat.toUInt16]
  else [(0xD800+(c.toNat-0x10000)/0x400).toUInt16, (0xDC00+(c.toNat-0x10000)%0x400).toUInt16]

def ofScalars (cs : List Char) : JsString := cs.flatMap utf16

def isHigh (c : CodeUnit) : Bool := 0xD800 ≤ c.toNat && c.toNat < 0xDC00

def isLow (c : CodeUnit) : Bool := 0xDC00 ≤ c.toNat && c.toNat < 0xE000

def pairScalar (c d : CodeUnit) : Char :=
  Char.ofNat (0x10000+(c.toNat-0xD800)*0x400+(d.toNat-0xDC00))

/-- A code unit on its own; a surrogate without its partner is replaced. -/
def unitScalar (c : CodeUnit) : Char :=
  if isHigh c || isLow c then replacement else Char.ofNat c.toNat

/-- The scalar values of a string. -/
def scalars : JsString → List Char
  | [] => []
  | [c] => [unitScalar c]
  | c :: d :: rest =>
    if isHigh c && isLow d then pairScalar c d :: scalars rest
    else unitScalar c :: scalars (d :: rest)

/-- The bytes written for a string with encoding `utf8`. -/
def encodeUtf8 (s : JsString) : List UInt8 := (scalars s).flatMap String.utf8EncodeChar

/-- The UTF-8 decoder between bytes: how many continuation bytes are still owed,
the code point so far and the range the next byte must lie in. -/
structure Utf8State where
  needed : ℕ
  codePoint : ℕ
  lower : ℕ
  upper : ℕ
deriving DecidableEq

def Utf8State.idle : Utf8State := ⟨0, 0, 0x80, 0xBF⟩

/-- A byte read between two characters. -/
def utf8Start (b : ℕ) : List Char × Utf8State :=
  if b < 0x80 then ([Char.ofNat b], .idle)
  else if 0xC2 ≤ b ∧ b < 0xE0 then ([], ⟨1, b-0xC0, 0x80, 0xBF⟩)
  else if 0xE0 ≤ b ∧ b < 0xF0 then
    ([], ⟨2, b-0xE0, if b = 0xE0 then 0xA0 else 0x80, if b = 0xED then 0x9F else 0xBF⟩)
  else if 0xF0 ≤ b ∧ b < 0xF5 then
    ([], ⟨3, b-0xF0, if b = 0xF0 then 0x90 else 0x80, if b = 0xF4 then 0x8F else 0xBF⟩)
  else ([replacement], .idle)

/-- A byte read in any state; a byte that cannot continue the character is read
again after its replacement. -/
def utf8Step (st : Utf8State) (b : ℕ) : List Char × Utf8State :=
  if st.needed = 0 then utf8Start b
  else if st.lower ≤ b ∧ b ≤ st.upper then
    if st.needed = 1 then ([Char.ofNat (st.codePoint*64+(b-0x80))], .idle)
    else ([], ⟨st.needed-1, st.codePoint*64+(b-0x80), 0x80, 0xBF⟩)
  else (replacement :: (utf8Start b).1, (utf8Start b).2)

def decodeScalars : Utf8State → List UInt8 → List Char
  | st, [] => if st.needed = 0 then [] else [replacement]
  | st, b :: rest => (utf8Step st b.toNat).1 ++ decodeScalars (utf8Step st b.toNat).2 rest

/-- `buf.toString('utf8')` -/
def decodeUtf8 (bytes : List UInt8) : JsString := ofScalars (decodeScalars .idle bytes)

/-! ### Strings without lone surrogates -/

/-- A string that is the UTF-16 encoding of scalar values. -/
def Paired (s : JsString) : Prop := ∃ cs, s = ofScalars cs

theorem char_range (c : Char) :
    c.toNat < 0x110000 ∧ ¬(0xD800 ≤ c.toNat ∧ c.toNat < 0xE000) := by
  have hv : c.toNat = c.val.toNat := rfl
  rcases c.valid with h | h
  · have : c.val.toNat < 0xD800 := h
    omega
  · have h1 : 0xDFFF < c.val.toNat := h.1
    have h2 : c.val.toNat < 0x110000 := h.2
    omega

theorem toUInt16_toNat (n : ℕ) (h : n < 0x10000) : n.toUInt16.toNat = n := by
  rw [Nat.toUInt16, UInt16.toNat_ofNat']
  omega

theorem scalars_cons (c : CodeUnit) (rest : JsString) (h : isHigh c = false) :
    scalars (c :: rest) = unitScalar c :: scalars rest := by
  cases rest with
  | nil => rfl
  | cons d rest => simp only [scalars, h, Bool.false_and, Bool.false_eq_true, ↓reduceIte]

theorem scalars_utf16_append (c : Char) (rest : JsString) :
    scalars (utf16 c ++ rest) = c :: scalars rest := by
  obtain ⟨hmax, hsur⟩ := char_range c
  unfold utf16
  split_ifs with hb
  · have hn := toUInt16_toNat c.toNat hb
    have hhigh : isHigh c.toNat.toUInt16 = false := by
      simp only [isHigh, hn, Bool.and_eq_false_iff, decide_eq_false_iff_not]
      omega
    have hlow : isLow c.toNat.toUInt16 = false := by
      simp only [isLow, hn, Bool.and_eq_false_iff, decide_eq_false_iff_not]
      omega
    change scalars (c.toNat.toUInt16 :: rest) = _
    rw [scalars_cons _ _ hhigh]
    simp only [unitScalar, hhigh, hlow, Bool.or_self, Bool.false_eq_true, ↓reduceIte, hn,
      Char.ofNat_toNat]
  · have h1 := toUInt16_toNat (0xD800+(c.toNat-0x10000)/0x400) (by omega)
    have h2 := toUInt16_toNat (0xDC00+(c.toNat-0x10000)%0x400) (by omega)
    have hhigh : isHigh (0xD800+(c.toNat-0x10000)/0x400).toUInt16 = true := by
      simp only [isHigh, h1, Bool.and_eq_true, decide_eq_true_eq]
      omega
    have hlow : isLow (0xDC00+(c.toNat-0x10000)%0x400).toUInt16 = true := by
      simp only [isLow, h2, Bool.and_eq_true, decide_eq_true_eq]
      omega
    have hpair : 0x10000+(0xD800+(c.toNat-0x10000)/0x400-0xD800)*0x400+
        (0xDC00+(c.toNat-0x10000)%0x400-0xDC00) = c.toNat := by omega
    simp only [List.cons_append, List.nil_append, scalars, hhigh, hlow, Bool.and_self, ↓reduceIte,
      pairScalar, h1, h2, hpair, Char.ofNat_toNat]

theorem scalars_ofScalars (cs : List Char) : scalars (ofScalars cs) = cs := by
  induction cs with
  | nil => rfl
  | cons c cs ih =>
    change scalars (utf16 c ++ ofScalars cs) = _
    rw [scalars_utf16_append, ih]

theorem ofScalars_append (a b : List Char) : ofScalars (a ++ b) = ofScalars a ++ ofScalars b :=
  List.flatMap_append

theorem Paired.nil : Paired [] := ⟨[], rfl⟩

theorem Paired.append {a b : JsString} (ha : Paired a) (hb : Paired b) : Paired (a ++ b) := by
  obtain ⟨as, rfl⟩ := ha
  obtain ⟨bs, rfl⟩ := hb
  exact ⟨as ++ bs, (ofScalars_append as bs).symm⟩

/-- A code unit outside the surrogates is a character of its own. -/
theorem Paired.unit (c : CodeUnit) (hh : isHigh c = false) (hl : isLow c = false) : Paired [c] := by
  have hr : ¬(0xD800 ≤ c.toNat ∧ c.toNat < 0xE000) := by
    simp only [isHigh, isLow, Bool.and_eq_false_iff, decide_eq_false_iff_not] at hh hl
    omega
  have hlt := c.toNat_lt
  have hv : c.toNat.isValidChar := by
    unfold Nat.isValidChar
    omega
  have hc : (Char.ofNat c.toNat).toNat = c.toNat := by
    rw [Char.ofNat, dif_pos hv]
    rfl
  refine ⟨[Char.ofNat c.toNat], ?_⟩
  have hb : c.toNat < 0x10000 := hlt
  simp only [ofScalars, List.flatMap_cons, List.flatMap_nil, List.append_nil, utf16, hc, hb, ↓reduceIte]
  rw [Nat.toUInt16, UInt16.ofNat_toNat]

/-- A surrogate pair is a character of its own. -/
theorem Paired.pair (c d : CodeUnit) (hh : isHigh c = true) (hl : isLow d = true) :
    Paired [c, d] := by
  simp only [isHigh, isLow, Bool.and_eq_true, decide_eq_true_eq] at hh hl
  set n := 0x10000+(c.toNat-0xD800)*0x400+(d.toNat-0xDC00) with hn
  have hv : n.isValidChar := by
    unfold Nat.isValidChar
    omega
  have hc : (Char.ofNat n).toNat = n := by
    rw [Char.ofNat, dif_pos hv]
    rfl
  have hb : ¬ n < 0x10000 := by omega
  have h1 : 0xD800+(n-0x10000)/0x400 = c.toNat := by omega
  have h2 : 0xDC00+(n-0x10000)%0x400 = d.toNat := by omega
  refine ⟨[Char.ofNat n], ?_⟩
  have hu (x : CodeUnit) : x.toNat.toUInt16 = x := UInt16.ofNat_toNat
  simp only [ofScalars, List.flatMap_cons, List.flatMap_nil, List.append_nil, utf16, hc, hb,
    ↓reduceIte, h1, h2, hu]

theorem encodeUtf8_append {a b : JsString} (ha : Paired a) (hb : Paired b) :
    encodeUtf8 (a ++ b) = encodeUtf8 a ++ encodeUtf8 b := by
  obtain ⟨as, rfl⟩ := ha
  obtain ⟨bs, rfl⟩ := hb
  rw [← ofScalars_append]
  simp only [encodeUtf8, scalars_ofScalars, List.flatMap_append]

/-- UTF-8 takes at least one byte for each code unit. -/
theorem length_le_encodeUtf8 {s : JsString} (h : Paired s) : s.length ≤ (encodeUtf8 s).length := by
  obtain ⟨cs, rfl⟩ := h
  rw [encodeUtf8, scalars_ofScalars]
  induction cs with
  | nil => exact le_rfl
  | cons c cs ih =>
    have hc : (utf16 c).length ≤ (String.utf8EncodeChar c).length := by
      have hv : c.val.toNat = c.toNat := rfl
      simp only [utf16, String.utf8EncodeChar, hv]
      split_ifs <;> simp only [List.length_cons, List.length_nil] <;> omega
    change (utf16 c ++ ofScalars cs).length ≤ _
    rw [List.flatMap_cons, List.length_append, List.length_append]
    omega

/-! ### Reading back -/

theorem toUInt8_toNat (n : ℕ) (h : n < 0x100) : n.toUInt8.toNat = n := by
  rw [Nat.toUInt8, UInt8.toNat_ofNat']
  omega

theorem utf8Step_ascii (b : ℕ) (h : b < 0x80) : utf8Step .idle b = ([Char.ofNat b], .idle) := by
  simp only [utf8Step, Utf8State.idle, utf8Start, h, ↓reduceIte]

theorem utf8Step_lead2 (b : ℕ) (h : 0xC2 ≤ b ∧ b < 0xE0) :
    utf8Step .idle b = ([], ⟨1, b-0xC0, 0x80, 0xBF⟩) := by
  have h1 : ¬ b < 0x80 := by omega
  simp only [utf8Step, Utf8State.idle, utf8Start, h1, h, and_self, ↓reduceIte]

theorem utf8Step_lead3 (b : ℕ) (h : 0xE0 ≤ b ∧ b < 0xF0) : utf8Step .idle b =
    ([], ⟨2, b-0xE0, if b = 0xE0 then 0xA0 else 0x80, if b = 0xED then 0x9F else 0xBF⟩) := by
  have h1 : ¬ b < 0x80 := by omega
  have h2 : ¬(0xC2 ≤ b ∧ b < 0xE0) := by omega
  simp only [utf8Step, Utf8State.idle, utf8Start, h1, h2, h, and_self, ↓reduceIte]

theorem utf8Step_lead4 (b : ℕ) (h : 0xF0 ≤ b ∧ b < 0xF5) : utf8Step .idle b =
    ([], ⟨3, b-0xF0, if b = 0xF0 then 0x90 else 0x80, if b = 0xF4 then 0x8F else 0xBF⟩) := by
  have h1 : ¬ b < 0x80 := by omega
  have h2 : ¬(0xC2 ≤ b ∧ b < 0xE0) := by omega
  have h3 : ¬(0xE0 ≤ b ∧ b < 0xF0) := by omega
  simp only [utf8Step, Utf8State.idle, utf8Start, h1, h2, h3, h, and_self, ↓reduceIte]

theorem utf8Step_last (cp lo hi b : ℕ) (h : lo ≤ b ∧ b ≤ hi) :
    utf8Step ⟨1, cp, lo, hi⟩ b = ([Char.ofNat (cp*64+(b-0x80))], .idle) := by
  simp only [utf8Step, one_ne_zero, h, and_self, ↓reduceIte]

theorem utf8Step_more (n cp lo hi b : ℕ) (h : lo ≤ b ∧ b ≤ hi) :
    utf8Step ⟨n+2, cp, lo, hi⟩ b = ([], ⟨n+1, cp*64+(b-0x80), 0x80, 0xBF⟩) := by
  have h1 : n+2 ≠ 1 := by omega
  simp only [utf8Step, Nat.add_eq_zero_iff, OfNat.ofNat_ne_zero, and_false, h1, h, and_self,
    ↓reduceIte]
  rfl

/-- A continuation byte between characters is replaced on its own. -/
theorem utf8Step_continuation (b : ℕ) (h : 0x80 ≤ b ∧ b < 0xC0) :
    utf8Step .idle b = ([replacement], .idle) := by
  have h1 : ¬ b < 0x80 := by omega
  have h2 : ¬(0xC2 ≤ b ∧ b < 0xE0) := by omega
  have h3 : ¬(0xE0 ≤ b ∧ b < 0xF0) := by omega
  have h4 : ¬(0xF0 ≤ b ∧ b < 0xF5) := by omega
  simp only [utf8Step, Utf8State.idle, utf8Start, h1, h2, h3, h4, ↓reduceIte]

/-- The bytes of a character decode to it, whatever follows. -/
theorem decodeScalars_utf8EncodeChar (c : Char) (rest : List UInt8) :
    decodeScalars .idle (String.utf8EncodeChar c ++ rest) = c :: decodeScalars .idle rest := by
  obtain ⟨hmax, hsur⟩ := char_range c
  have hbyte (n : ℕ) (h : n < 0x100) : (UInt8.ofNat n).toNat = n := toUInt8_toNat n h
  unfold String.utf8EncodeChar
  obtain ⟨v, hv⟩ : ∃ v, c.toNat = v := ⟨_, rfl⟩
  have hc (n : ℕ) (hn : n = v) : [Char.ofNat n] = [c] := by rw [hn, ← hv, Char.ofNat_toNat]
  rw [hv] at hmax hsur
  dsimp only
  rw [show c.val.toNat = v from hv]
  split_ifs with h1 h2 h3 <;> simp only [List.cons_append, List.nil_append, decodeScalars]
  · rw [hbyte _ (by omega), utf8Step_ascii _ (by omega), hc _ rfl]
    rfl
  · rw [hbyte (v/64%0x20+0xc0) (by omega), utf8Step_lead2 _ (by omega),
      hbyte (v%0x40+0x80) (by omega), utf8Step_last _ _ _ _ (by omega), hc _ (by omega)]
    rfl
  · rw [hbyte (v/4096%0x10+0xe0) (by omega), utf8Step_lead3 _ (by omega),
      hbyte (v/64%0x40+0x80) (by omega), utf8Step_more 0 _ _ _ _ (by split_ifs <;> omega),
      hbyte (v%0x40+0x80) (by omega), utf8Step_last _ _ _ _ (by omega), hc _ (by omega)]
    rfl
  · rw [hbyte (v/262144%8+0xf0) (by omega), utf8Step_lead4 _ (by omega),
      hbyte (v/4096%0x40+0x80) (by omega), utf8Step_more 1 _ _ _ _ (by split_ifs <;> omega),
      hbyte (v/64%0x40+0x80) (by omega), utf8Step_more 0 _ _ _ _ (by omega),
      hbyte (v%0x40+0x80) (by omega), utf8Step_last _ _ _ _ (by omega), hc _ (by omega)]
    rfl

theorem decodeScalars_flatMap (cs : List Char) (rest : List UInt8) :
    decodeScalars .idle (cs.flatMap String.utf8EncodeChar ++ rest) =
      cs ++ decodeScalars .idle rest := by
  induction cs with
  | nil => rfl
  | cons c cs ih =>
    rw [List.flatMap_cons, List.append_assoc, decodeScalars_utf8EncodeChar, ih]
    rfl

/-- Reading a written text gives it back. -/
theorem decodeUtf8_encodeUtf8 {s : JsString} (h : Paired s) : decodeUtf8 (encodeUtf8 s) = s := by
  obtain ⟨cs, rfl⟩ := h
  have hd := decodeScalars_flatMap cs []
  rw [List.append_nil] at hd
  rw [decodeUtf8, encodeUtf8, scalars_ofScalars, hd]
  simp [decodeScalars, Utf8State.idle]

/-! ### Byte windows -/

/-- Whatever state an ASCII byte is read in, the next byte starts a character. -/
theorem utf8Step_ascii_resets (st : Utf8State) (b : ℕ) (hlo : 0x80 ≤ st.lower) (hb : b < 0x80) :
    ∃ out, utf8Step st b = (out ++ [Char.ofNat b], .idle) := by
  have h1 : ¬(st.lower ≤ b ∧ b ≤ st.upper) := by omega
  by_cases h0 : st.needed = 0
  · exact ⟨[], by simp [utf8Step, h0, utf8Start, hb]⟩
  · exact ⟨[replacement], by simp [utf8Step, h0, h1, utf8Start, hb]⟩

theorem utf8Start_lower (b : ℕ) : 0x80 ≤ (utf8Start b).2.lower := by
  unfold utf8Start
  split_ifs <;> simp [Utf8State.idle]

theorem utf8Step_lower (st : Utf8State) (b : ℕ) : 0x80 ≤ (utf8Step st b).2.lower := by
  have hs := utf8Start_lower b
  unfold utf8Step
  split_ifs
  · exact hs
  · simp [Utf8State.idle]
  · exact le_rfl
  · exact hs

/-- A line break inside the bytes is a line break of the text, and the text
after it does not depend on the bytes before it. -/
theorem decodeScalars_newline (st : Utf8State) (u : List UInt8) (hlo : 0x80 ≤ st.lower) :
    ∃ out, ∀ rest, decodeScalars st (u ++ 0x0A :: rest) =
      out ++ '\n' :: decodeScalars .idle rest := by
  induction u generalizing st with
  | nil =>
    obtain ⟨out, ho⟩ := utf8Step_ascii_resets st 0x0A hlo (by omega)
    refine ⟨out, fun rest => ?_⟩
    simp only [List.nil_append, decodeScalars, UInt8.reduceToNat, ho, List.append_assoc]
    rfl
  | cons b u ih =>
    obtain ⟨out, ho⟩ := ih (utf8Step st b.toNat).2 (utf8Step_lower st b.toNat)
    refine ⟨(utf8Step st b.toNat).1 ++ out, fun rest => ?_⟩
    simp only [List.cons_append, decodeScalars, ho, List.append_assoc]

/-- Every byte of a character but its first is a continuation byte. -/
theorem utf8EncodeChar_tail (c : Char) :
    ∀ b ∈ (String.utf8EncodeChar c).tail, 0x80 ≤ b.toNat ∧ b.toNat < 0xC0 := by
  have hbyte (n : ℕ) (h : n < 0x100) : (UInt8.ofNat n).toNat = n := toUInt8_toNat n h
  have hcont (n : ℕ) : 0x80 ≤ (UInt8.ofNat (n%0x40+0x80)).toNat ∧
      (UInt8.ofNat (n%0x40+0x80)).toNat < 0xC0 := by
    rw [hbyte _ (by omega)]
    omega
  unfold String.utf8EncodeChar
  intro b hb
  dsimp only at hb
  split_ifs at hb <;> simp only [List.tail_cons, List.mem_cons, List.not_mem_nil, or_false] at hb
  · subst hb
    exact hcont _
  · rcases hb with rfl | rfl <;> exact hcont _
  · rcases hb with rfl | rfl | rfl <;> exact hcont _

theorem decodeScalars_continuations (u rest : List UInt8)
    (hu : ∀ b ∈ u, 0x80 ≤ b.toNat ∧ b.toNat < 0xC0) :
    decodeScalars .idle (u ++ rest) =
      List.replicate u.length replacement ++ decodeScalars .idle rest := by
  induction u with
  | nil => rfl
  | cons b u ih =>
    have ih := ih (fun x hx => hu x (List.mem_cons_of_mem _ hx))
    simp only [List.cons_append, decodeScalars,
      utf8Step_continuation _ (hu b (List.mem_cons_self ..)), ih]
    rfl

/-- A window that starts inside a written text decodes to replacements for the
character it cuts and then to a proper suffix of the text. -/
theorem decodeScalars_drop (cs : List Char) (k : ℕ) (hk : 0 < k)
    (hle : k ≤ (cs.flatMap String.utf8EncodeChar).length) :
    ∃ j pre post, cs = pre ++ post ∧ pre ≠ [] ∧
      decodeScalars .idle ((cs.flatMap String.utf8EncodeChar).drop k) =
        List.replicate j replacement ++ post := by
  induction cs generalizing k with
  | nil => simp at hle; omega
  | cons c cs ih =>
    set enc := String.utf8EncodeChar c with henc
    have hnil : decodeScalars .idle (cs.flatMap String.utf8EncodeChar) = cs := by
      have h := decodeScalars_flatMap cs []
      simpa [decodeScalars, Utf8State.idle] using h
    rw [List.flatMap_cons, ← henc] at hle ⊢
    rw [List.length_append] at hle
    rcases lt_trichotomy k enc.length with hlt | heq | hgt
    · have hcont : ∀ b ∈ enc.drop k, 0x80 ≤ b.toNat ∧ b.toNat < 0xC0 := by
        intro b hb
        apply utf8EncodeChar_tail c
        have hsplit : enc.drop k = (enc.tail).drop (k-1) := by
          rw [← List.drop_one, List.drop_drop]
          congr 1
          omega
        rw [hsplit] at hb
        exact List.mem_of_mem_drop hb
      refine ⟨(enc.drop k).length, [c], cs, rfl, List.cons_ne_nil _ _, ?_⟩
      rw [List.drop_append_of_le_length hlt.le, decodeScalars_continuations _ _ hcont, hnil]
    · refine ⟨0, [c], cs, rfl, List.cons_ne_nil _ _, ?_⟩
      rw [heq, List.drop_left, hnil]
      rfl
    · obtain ⟨j, pre, post, hcs, _, hdec⟩ := ih (k-enc.length) (by omega) (by omega)
      refine ⟨j, c :: pre, post, by rw [hcs]; rfl, List.cons_ne_nil _ _, ?_⟩
      rw [List.drop_append, List.drop_eq_nil_of_le hgt.le, List.nil_append, hdec]

/-! ### Base64 -/

def base64Unit (v : ℕ) : CodeUnit :=
  if v < 26 then (0x41+v).toUInt16
  else if v < 52 then (0x61+(v-26)).toUInt16
  else if v < 62 then (0x30+(v-52)).toUInt16
  else if v = 62 then 0x2B
  else 0x2F

/-- `buffer.toString('base64')` -/
def base64 : List UInt8 → JsString
  | [] => []
  | [a] => [base64Unit (a.toNat/4), base64Unit (a.toNat%4*16), 0x3D, 0x3D]
  | [a, b] => [base64Unit (a.toNat/4), base64Unit (a.toNat%4*16+b.toNat/16),
      base64Unit (b.toNat%16*4), 0x3D]
  | a :: b :: c :: rest => base64Unit (a.toNat/4) :: base64Unit (a.toNat%4*16+b.toNat/16) ::
      base64Unit (b.toNat%16*4+c.toNat/64) :: base64Unit (c.toNat%64) :: base64 rest

end Js
