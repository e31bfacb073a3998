import Mathlib.Data.List.TakeWhile

/-! The part of LogQL in which a query is a stream selector and line filters. Texts are in UTF-8; a text that
cannot be scanned, or is another kind of query, is read as `none`. Which words are keywords is left open. -/
namespace LogQL

abbrev Text := List UInt8

def quote : UInt8 := 0x22
def tick : UInt8 := 0x60
def backslash : UInt8 := 0x5C
def newline : UInt8 := 0x0A

/-! ### Literals -/

def digitValue (base : ℕ) (c : UInt8) : Option ℕ :=
  let n := c.toNat
  let d := if 0x30 ≤ n ∧ n ≤ 0x39 then n-0x30 else if 0x41 ≤ n ∧ n ≤ 0x46 then n-0x37
    else if 0x61 ≤ n ∧ n ≤ 0x66 then n-0x57 else base
  if d < base then some d else none

/-- The number that a fixed count of digits adds to those before, and what follows -/
def readDigits (base : ℕ) : ℕ → ℕ → Text → Option (ℕ × Text)
  | 0, n, s => some (n, s)
  | _+1, _, [] => none
  | k+1, n, c :: s => (digitValue base c).bind fun d => readDigits base k (n*base+d) s

/-- The character that one letter stands for behind a backslash -/
def simpleEscape (c : UInt8) : Option UInt8 :=
  if c = 0x61 then some 0x07 else if c = 0x62 then some 0x08 else if c = 0x66 then some 0x0C
  else if c = 0x6E then some 0x0A else if c = 0x72 then some 0x0D else if c = 0x74 then some 0x09
  else if c = 0x76 then some 0x0B else if c = backslash ∨ c = quote then some c else none

def byteValue (n : ℕ) : Option Text := if n < 0x100 then some [n.toUInt8] else none

def runeValue (n : ℕ) : Option Text :=
  if n.isValidChar then some (String.utf8EncodeChar (Char.ofNat n)) else none

/-- An escape of digits: those after the letter, or three octal ones -/
def digitsEscape (c : UInt8) (rest : Text) : Option (Text × Text) :=
  if c = 0x78 then (readDigits 16 2 0 rest).bind fun r => (byteValue r.1).map (·, r.2)
  else if c = 0x75 then (readDigits 16 4 0 rest).bind fun r => (runeValue r.1).map (·, r.2)
  else if c = 0x55 then (readDigits 16 8 0 rest).bind fun r => (runeValue r.1).map (·, r.2)
  else (readDigits 8 3 0 (c :: rest)).bind fun r => (byteValue r.1).map (·, r.2)

/-- What the text behind a backslash stands for, and what follows -/
def escape : Text → Option (Text × Text)
  | [] => none
  | c :: rest =>
    match simpleEscape c with
    | some b => some ([b], rest)
    | none => digitsEscape c rest

def unquoteFrom : ℕ → Text → Option Text
  | _, [] => some []
  | 0, _ :: _ => none
  | fuel+1, c :: rest =>
    if c = backslash then (escape rest).bind fun e => (unquoteFrom fuel e.2).map (e.1 ++ ·)
    else (unquoteFrom fuel rest).map (c :: ·)

/-- The value of what stands between double quotes -/
def unquote (s : Text) : Option Text := unquoteFrom s.length s

/-- What stands before the closing quote, and what follows; `escaped` says that a backslash stands before. -/
def splitQuoted : (escaped : Bool) → Text → Option (Text × Text)
  | _, [] => none
  | escaped, c :: rest =>
    if c = newline then none
    else if escaped = false ∧ c = quote then some ([], rest)
    else (splitQuoted (!escaped && c == backslash) rest).map fun r => (c :: r.1, r.2)

/-- The value of a literal behind its opening quote, and what follows -/
def readQuoted (s : Text) : Option (Text × Text) :=
  (splitQuoted false s).bind fun r => (unquote r.1).map (·, r.2)

/-- The value of a raw literal behind its opening back quote, and what follows -/
def readRaw : Text → Option (Text × Text)
  | [] => none
  | c :: rest => if c = tick then some ([], rest) else (readRaw rest).map fun r => (c :: r.1, r.2)

/-! ### Lengths and plain values -/

theorem readDigits_length (base : ℕ) {k n : ℕ} {s : Text} {r : ℕ × Text}
    (h : readDigits base k n s = some r) : r.2.length+k = s.length := by
  induction k generalizing n s with
  | zero =>
    cases h
    rfl
  | succ k ih =>
    cases s with
    | nil => cases h
    | cons c s =>
      obtain ⟨d, -, hrest⟩ := Option.bind_eq_some_iff.mp h
      have := ih hrest
      rw [List.length_cons]
      omega

theorem byteValue_length {n : ℕ} {v : Text} (h : byteValue n = some v) : v.length = 1 := by
  unfold byteValue at h
  split_ifs at h
  cases h
  rfl

theorem runeValue_length {n : ℕ} {v : Text} (h : runeValue n = some v) : v.length ≤ 4 := by
  unfold runeValue at h
  split_ifs at h
  cases h
  unfold String.utf8EncodeChar
  simp only
  split_ifs <;> simp only [List.length_cons, List.length_nil] <;> omega

/-- Digits that are read and then turned into bytes -/
theorem digits_length (base k : ℕ) (value : ℕ → Option Text) {s : Text} {e : Text × Text} {m : ℕ}
    (hvalue : ∀ {n v}, value n = some v → v.length ≤ m)
    (h : ((readDigits base k 0 s).bind fun r => (value r.1).map (·, r.2)) = some e) :
    e.1.length+e.2.length+k ≤ s.length+m := by
  obtain ⟨r, hr, hv⟩ := Option.bind_eq_some_iff.mp h
  obtain ⟨v, hvalued, he⟩ := Option.map_eq_some_iff.mp hv
  have hdigits := readDigits_length base hr
  have hm := hvalue hvalued
  rw [← he]
  simp only
  omega

/-- An escape stands for no more bytes than it has behind its backslash. -/
theorem escape_length {s : Text} {e : Text × Text} (h : escape s = some e) :
    e.1.length+e.2.length ≤ s.length := by
  cases s with
  | nil => cases h
  | cons c rest =>
    cases hsimple : simpleEscape c with
    | some b =>
      simp only [escape, hsimple] at h
      cases h
      simp only [List.length_cons, List.length_nil]
      omega
    | none =>
      simp only [escape, hsimple, digitsEscape] at h
      have hbyte {n : ℕ} {v : Text} (hv : byteValue n = some v) : v.length ≤ 1 := (byteValue_length hv).le
      rw [List.length_cons]
      split_ifs at h
      · have := digits_length 16 2 byteValue hbyte h
        omega
      · have := digits_length 16 4 runeValue runeValue_length h
        omega
      · have := digits_length 16 8 runeValue runeValue_length h
        omega
      · have := digits_length 8 3 byteValue hbyte h
        rw [List.length_cons] at this
        omega

/-- A value is no longer than its text, and shorter where something is escaped. -/
theorem unquoteFrom_length {fuel : ℕ} {s v : Text} (h : unquoteFrom fuel s = some v) :
    v.length ≤ s.length ∧ (backslash ∈ s → v.length < s.length) := by
  induction fuel generalizing s v with
  | zero =>
    cases s with
    | nil =>
      cases h
      exact ⟨le_rfl, fun hmem => absurd hmem List.not_mem_nil⟩
    | cons c rest => cases h
  | succ fuel ih =>
    cases s with
    | nil =>
      cases h
      exact ⟨le_rfl, fun hmem => absurd hmem List.not_mem_nil⟩
    | cons c rest =>
      unfold unquoteFrom at h
      rw [List.length_cons]
      split_ifs at h with hc
      · -- an escape stands for fewer bytes than it is written with
        obtain ⟨e, hescape, hmap⟩ := Option.bind_eq_some_iff.mp h
        obtain ⟨w, hw, hv⟩ := Option.map_eq_some_iff.mp hmap
        have hlen := escape_length hescape
        have hrest := (ih hw).1
        have hshort : v.length < rest.length+1 := by
          rw [← hv, List.length_append]
          omega
        exact ⟨hshort.le, fun _ => hshort⟩
      · obtain ⟨w, hw, hv⟩ := Option.map_eq_some_iff.mp h
        have hrest := ih hw
        rw [← hv, List.length_cons]
        refine ⟨by omega, fun hmem => ?_⟩
        have := hrest.2 ((List.mem_cons.mp hmem).resolve_left (Ne.symm hc))
        omega

theorem unquoteFrom_plain {fuel : ℕ} {s : Text} (hfuel : s.length ≤ fuel) (h : backslash ∉ s) :
    unquoteFrom fuel s = some s := by
  induction fuel generalizing s with
  | zero =>
    rw [List.length_eq_zero_iff.mp (Nat.le_zero.mp hfuel)]
    rfl
  | succ fuel ih =>
    cases s with
    | nil => rfl
    | cons c rest =>
      rw [List.mem_cons, not_or] at h
      rw [List.length_cons] at hfuel
      unfold unquoteFrom
      rw [if_neg (Ne.symm h.1), ih (by omega) h.2]
      rfl

/-- A value that stands between double quotes as it is -/
structure Plain (v : Text) : Prop where
  noQuote : quote ∉ v
  noBackslash : backslash ∉ v
  noNewline : newline ∉ v

theorem splitQuoted_plain {v : Text} (h : Plain v) (rest : Text) :
    splitQuoted false (v ++ quote :: rest) = some (v, rest) := by
  induction v with
  | nil => rfl
  | cons c v ih =>
    obtain ⟨hq, hb, hn⟩ := h
    rw [List.mem_cons, not_or] at hq hb hn
    have hbeq : (c == backslash) = false := beq_false_of_ne (Ne.symm hb.1)
    rw [List.cons_append, splitQuoted, if_neg (Ne.symm hn.1), if_neg fun hc => hq.1 hc.2.symm, hbeq,
      Bool.and_false, ih ⟨hq.2, hb.2, hn.2⟩]
    rfl

theorem splitQuoted_eq {escaped : Bool} {s : Text} {r : Text × Text} (h : splitQuoted escaped s = some r) :
    s = r.1 ++ quote :: r.2 ∧ newline ∉ r.1 := by
  induction s generalizing escaped r with
  | nil => cases h
  | cons c s ih =>
    unfold splitQuoted at h
    split_ifs at h with hn hq
    · cases h
      exact ⟨congrArg (· :: s) hq.2, List.not_mem_nil⟩
    · obtain ⟨r', hr', hr⟩ := Option.map_eq_some_iff.mp h
      obtain ⟨hs, hline⟩ := ih hr'
      rw [← hr]
      refine ⟨congrArg (c :: ·) hs, fun hmem => ?_⟩
      exact (List.mem_cons.mp hmem).elim (fun hc => hn hc.symm) hline

/-- Only behind a backslash does a quote not end the literal. -/
theorem splitQuoted_noQuote {s : Text} {r : Text × Text} (h : splitQuoted false s = some r)
    (hb : backslash ∉ r.1) : quote ∉ r.1 := by
  induction s generalizing r with
  | nil => cases h
  | cons c s ih =>
    unfold splitQuoted at h
    split_ifs at h with hn hq
    · cases h
      exact List.not_mem_nil
    · obtain ⟨r', hr', hr⟩ := Option.map_eq_some_iff.mp h
      rw [← hr, List.mem_cons, not_or] at hb
      have hplain : (c == backslash) = false := beq_false_of_ne (Ne.symm hb.1)
      rw [hplain, Bool.and_false] at hr'
      rw [← hr, List.mem_cons, not_or]
      exact ⟨fun hc => hq ⟨rfl, hc.symm⟩, ih hr' hb.2⟩

/-- Where a literal ends that is written with `v` and a quote: inside of `v`, behind it, or at a later quote -/
theorem splitQuoted_append {escaped : Bool} {v rest : Text} {r : Text × Text}
    (h : splitQuoted escaped (v ++ quote :: rest) = some r) :
    r.1.length < v.length ∨ r = (v, rest) ∨ ∃ more, rest = more ++ quote :: r.2 := by
  induction v generalizing escaped r with
  | nil =>
    rw [List.nil_append] at h
    unfold splitQuoted at h
    split_ifs at h with hn hq
    · cases h
      exact .inr (.inl rfl)
    · obtain ⟨r', hr', hr⟩ := Option.map_eq_some_iff.mp h
      refine .inr (.inr ⟨r'.1, ?_⟩)
      rw [← hr]
      exact (splitQuoted_eq hr').1
  | cons c v ih =>
    rw [List.cons_append] at h
    unfold splitQuoted at h
    split_ifs at h with hn hq
    · cases h
      exact .inl (Nat.succ_pos _)
    · obtain ⟨r', hr', hr⟩ := Option.map_eq_some_iff.mp h
      rw [← hr]
      obtain hshort | heq | hmore := ih hr'
      · exact .inl (Nat.succ_lt_succ hshort)
      · exact .inr (.inl (by rw [heq]))
      · exact .inr (.inr hmore)

theorem readQuoted_plain {v : Text} (h : Plain v) (rest : Text) :
    readQuoted (v ++ quote :: rest) = some (v, rest) := by
  rw [readQuoted, splitQuoted_plain h, Option.bind_some, unquote, unquoteFrom_plain le_rfl h.noBackslash]
  rfl

theorem readQuoted_length {s : Text} {r : Text × Text} (h : readQuoted s = some r) :
    r.1.length+1+r.2.length ≤ s.length := by
  obtain ⟨split, hsplit, hv⟩ := Option.bind_eq_some_iff.mp h
  obtain ⟨v, hunquote, hr⟩ := Option.map_eq_some_iff.mp hv
  have hvalue := (unquoteFrom_length hunquote).1
  rw [(splitQuoted_eq hsplit).1, ← hr, List.length_append, List.length_cons]
  simp only
  omega

/-- A literal is read back as it was written only if it is plain, or if it ends at a later quote. -/
theorem readQuoted_append {v rest rest' : Text} (h : readQuoted (v ++ quote :: rest) = some (v, rest')) :
    (Plain v ∧ rest' = rest) ∨ ∃ more, rest = more ++ quote :: rest' := by
  obtain ⟨r, hsplit, hvalue⟩ := Option.bind_eq_some_iff.mp h
  obtain ⟨w, hunquote, hpair⟩ := Option.map_eq_some_iff.mp hvalue
  obtain ⟨rfl, rfl⟩ := Prod.mk.inj hpair
  have hlen := unquoteFrom_length hunquote
  obtain hshort | heq | hmore := splitQuoted_append hsplit
  · -- the value is no longer than the text it stands for
    omega
  · rw [heq] at hlen hsplit ⊢
    have hbackslash : backslash ∉ w := fun hmem => absurd (hlen.2 hmem) (lt_irrefl _)
    exact .inl ⟨⟨splitQuoted_noQuote hsplit hbackslash, hbackslash, (splitQuoted_eq hsplit).2⟩, rfl⟩
  · exact .inr hmore

/-- A raw literal ends at its first back quote. -/
theorem readRaw_eq {s : Text} {r : Text × Text} (h : readRaw s = some r) : s = r.1 ++ tick :: r.2 ∧ tick ∉ r.1 := by
  induction s generalizing r with
  | nil => cases h
  | cons c s ih =>
    unfold readRaw at h
    split_ifs at h with hc
    · cases h
      exact ⟨congrArg (· :: s) hc, List.not_mem_nil⟩
    · obtain ⟨r', hr', hr⟩ := Option.map_eq_some_iff.mp h
      obtain ⟨hs, htick⟩ := ih hr'
      rw [← hr, List.mem_cons, not_or]
      exact ⟨congrArg (c :: ·) hs, Ne.symm hc, htick⟩

theorem readRaw_append {f : Text} (h : tick ∉ f) (rest : Text) : readRaw (f ++ tick :: rest) = some (f, rest) := by
  induction f with
  | nil => rfl
  | cons c f ih =>
    rw [List.mem_cons, not_or] at h
    rw [List.cons_append, readRaw, if_neg (Ne.symm h.1), ih h.2]
    rfl

/-! ### Tokens -/

inductive Token
  | word (w : Text)
  | literal (value : Text)
  | openBrace
  | closeBrace
  | comma
  | eq
  | neq
  | re
  | nre
  | pipeExact
  | pipeMatch
deriving DecidableEq

def isWordStart (c : UInt8) : Bool :=
  (0x41 ≤ c.toNat && c.toNat ≤ 0x5A) || (0x61 ≤ c.toNat && c.toNat ≤ 0x7A) || c == 0x5F

def isWordPart (c : UInt8) : Bool := isWordStart c || (0x30 ≤ c.toNat && c.toNat ≤ 0x39)

def isSpace (c : UInt8) : Bool := c == 0x20 || c == 0x09 || c == 0x0A || c == 0x0D

/-- A sign of one or two characters; `==`, `|` and the others belong to other kinds of queries. -/
def readSign (c : UInt8) (rest : Text) : Option (Token × Text) :=
  let second := rest.head?
  if c = 0x7B then some (.openBrace, rest)
  else if c = 0x7D then some (.closeBrace, rest)
  else if c = 0x2C then some (.comma, rest)
  else if c = 0x3D then
    if second = some 0x7E then some (.re, rest.tail) else if second = some 0x3D then none else some (.eq, rest)
  else if c = 0x21 then
    if second = some 0x3D then some (.neq, rest.tail)
    else if second = some 0x7E then some (.nre, rest.tail) else none
  else if c = 0x7C then
    if second = some 0x3D then some (.pipeExact, rest.tail)
    else if second = some 0x7E then some (.pipeMatch, rest.tail) else none
  else none

/-- The token that begins with this character, and what follows -/
def readToken (c : UInt8) (rest : Text) : Option (Token × Text) :=
  if c = quote then (readQuoted rest).map fun r => (.literal r.1, r.2)
  else if c = tick then (readRaw rest).map fun r => (.literal r.1, r.2)
  else if isWordStart c then some (.word (c :: rest.takeWhile isWordPart), rest.dropWhile isWordPart)
  else readSign c rest

/-- The tokens of a text, without white space and comments -/
def lexFrom : ℕ → Text → Option (List Token)
  | _, [] => some []
  | 0, _ :: _ => none
  | fuel+1, c :: rest =>
    if isSpace c then lexFrom fuel rest
    else if c = 0x23 then lexFrom fuel (rest.dropWhile (· ≠ newline))
    else (readToken c rest).bind fun r => (lexFrom fuel r.2).map (r.1 :: ·)

def lex (s : Text) : Option (List Token) := lexFrom s.length s

/-! ### Scanning -/

/-- How many bytes a token takes at least -/
def Token.size : Token → ℕ
  | .word w => w.length
  | .literal v => v.length+2
  | .openBrace | .closeBrace | .comma | .eq => 1
  | .neq | .re | .nre | .pipeExact | .pipeMatch => 2

def size : List Token → ℕ
  | [] => 0
  | t :: ts => t.size+size ts

theorem readSign_size {c : UInt8} {rest : Text} {r : Token × Text} (h : readSign c rest = some r) :
    1 ≤ r.1.size ∧ r.1.size+r.2.length ≤ rest.length+1 := by
  have htail {b : UInt8} (hb : rest.head? = some b) : rest.tail.length+1 = rest.length := by
    cases rest with
    | nil => cases hb
    | cons c cs => rfl
  simp only [readSign] at h
  split_ifs at h with _ _ _ _ hb _ _ hb hb _ hb hb <;> cases h <;> simp only [Token.size] <;>
    first
    | exact ⟨le_rfl, by omega⟩
    | have := htail hb
      exact ⟨by omega, by omega⟩

theorem readToken_size {c : UInt8} {rest : Text} {r : Token × Text} (h : readToken c rest = some r) :
    1 ≤ r.1.size ∧ r.1.size+r.2.length ≤ rest.length+1 := by
  unfold readToken at h
  split_ifs at h with hquote htick hword
  · obtain ⟨v, hv, hr⟩ := Option.map_eq_some_iff.mp h
    have := readQuoted_length hv
    rw [← hr]
    simp only [Token.size]
    omega
  · obtain ⟨v, hv, hr⟩ := Option.map_eq_some_iff.mp h
    rw [(readRaw_eq hv).1, ← hr, List.length_append, List.length_cons]
    simp only [Token.size]
    omega
  · cases h
    have hsplit := congrArg List.length (List.takeWhile_append_dropWhile (p := isWordPart) (l := rest))
    rw [List.length_append] at hsplit
    simp only [Token.size, List.length_cons]
    omega
  · exact readSign_size h

/-- More fuel than bytes changes nothing. -/
theorem lexFrom_eq {fuel : ℕ} {s : Text} (h : s.length ≤ fuel) : lexFrom fuel s = lex s := by
  have hmore : ∀ {n m : ℕ} {s : Text}, s.length ≤ n → s.length ≤ m → lexFrom n s = lexFrom m s := by
    intro n
    induction n with
    | zero =>
      intro m s hn hm
      rw [List.length_eq_zero_iff.mp (Nat.le_zero.mp hn)]
      cases m <;> rfl
    | succ n ih =>
      intro m s hn hm
      cases s with
      | nil => cases m <;> rfl
      | cons c rest =>
        rw [List.length_cons] at hn hm
        cases m with
        | zero => omega
        | succ m =>
          have hdrop : (rest.dropWhile (· ≠ newline)).length ≤ rest.length := List.length_dropWhile_le _ _
          unfold lexFrom
          rw [ih (m := m) (s := rest) (by omega) (by omega),
            ih (m := m) (s := rest.dropWhile (· ≠ newline)) (by omega) (by omega)]
          split_ifs
          · rfl
          · rfl
          · refine Option.bind_congr fun r hr => ?_
            have hsize := readToken_size hr
            rw [ih (m := m) (s := r.2) (by omega) (by omega)]
  exact hmore h le_rfl

theorem lex_cons {c : UInt8} (hspace : isSpace c = false) (hcomment : c ≠ 0x23) (rest : Text) :
    lex (c :: rest) = (readToken c rest).bind fun r => (lex r.2).map (r.1 :: ·) := by
  unfold lex
  rw [List.length_cons, lexFrom, if_neg (by rw [hspace]; exact Bool.false_ne_true), if_neg hcomment]
  refine Option.bind_congr fun r hr => ?_
  have hsize := readToken_size hr
  rw [lexFrom_eq (s := r.2) (by omega)]
  rfl

theorem lex_space (rest : Text) : lex (0x20 :: rest) = lex rest := rfl

theorem size_le_of_lexFrom {fuel : ℕ} {s : Text} {ts : List Token} (h : lexFrom fuel s = some ts) :
    size ts ≤ s.length := by
  induction fuel generalizing s ts with
  | zero =>
    cases s with
    | nil =>
      cases h
      exact le_rfl
    | cons c rest => cases h
  | succ fuel ih =>
    cases s with
    | nil =>
      cases h
      exact le_rfl
    | cons c rest =>
      unfold lexFrom at h
      rw [List.length_cons]
      split_ifs at h
      · have := ih h
        omega
      · have hrest := ih h
        have hdrop : (rest.dropWhile (· ≠ newline)).length ≤ rest.length := List.length_dropWhile_le _ _
        omega
      · obtain ⟨r, hr, hmap⟩ := Option.bind_eq_some_iff.mp h
        obtain ⟨ts', hts', rfl⟩ := Option.map_eq_some_iff.mp hmap
        have htoken := (readToken_size hr).2
        have hrest := ih hts'
        calc size (r.1 :: ts') = r.1.size+size ts' := rfl
          _ ≤ r.1.size+r.2.length := by omega
          _ ≤ rest.length+1 := htoken

/-- What is scanned behind the literal is as long as what is written there, but for a few bytes: the literal
cannot have run on to a later quote. -/
theorem lex_literal_iff {v rest : Text} {ts : List Token} {k : ℕ} (hlead : quote ∉ rest.take k)
    (hsize : rest.length ≤ size ts+k) :
    lex (quote :: (v ++ quote :: rest)) = some (.literal v :: ts) ↔ Plain v ∧ lex rest = some ts := by
  have hread : readToken quote (v ++ quote :: rest) =
      (readQuoted (v ++ quote :: rest)).map fun r => (.literal r.1, r.2) := rfl
  rw [lex_cons (by decide) (by decide), hread]
  constructor
  · intro h
    obtain ⟨r, hr, hmap⟩ := Option.bind_eq_some_iff.mp h
    obtain ⟨q, hq, rfl⟩ := Option.map_eq_some_iff.mp hr
    obtain ⟨ts', hts', hcons⟩ := Option.map_eq_some_iff.mp hmap
    obtain ⟨hvalue, rfl⟩ := List.cons.inj hcons
    have hv : q.1 = v := Token.literal.inj hvalue
    have hread : readQuoted (v ++ quote :: rest) = some (v, q.2) := by rw [hq, ← hv]
    obtain ⟨hplain, hrest⟩ | ⟨more, hmore⟩ := readQuoted_append hread
    · exact ⟨hplain, hrest ▸ hts'⟩
    · have hscanned : size ts' ≤ q.2.length := size_le_of_lexFrom hts'
      have hlen := congrArg List.length hmore
      rw [List.length_append, List.length_cons] at hlen
      refine absurd ?_ hlead
      rw [hmore, List.take_append, List.mem_append]
      refine .inr ?_
      have hshort : k-more.length = (k-more.length-1)+1 := by omega
      rw [hshort, List.take_succ_cons]
      exact List.mem_cons_self
  · intro ⟨hplain, hts⟩
    rw [readQuoted_plain hplain, Option.map_some, Option.bind_some, hts]
    rfl

theorem lex_raw_iff (f : Text) : lex (tick :: (f ++ [tick])) = some [.literal f] ↔ tick ∉ f := by
  have hread : readToken tick (f ++ [tick]) = (readRaw (f ++ [tick])).map fun r => (.literal r.1, r.2) := rfl
  rw [lex_cons (by decide) (by decide), hread]
  constructor
  · intro h
    obtain ⟨r, hr, hmap⟩ := Option.bind_eq_some_iff.mp h
    obtain ⟨q, hq, rfl⟩ := Option.map_eq_some_iff.mp hr
    obtain ⟨ts', -, hcons⟩ := Option.map_eq_some_iff.mp hmap
    have hf : q.1 = f := Token.literal.inj (List.cons.inj hcons).1
    exact hf ▸ (readRaw_eq hq).2
  · intro h
    rw [readRaw_append h]
    rfl

/-- A label name: letters, digits and underscores, not a digit first -/
def IsName : Text → Prop
  | [] => False
  | c :: cs => isWordStart c = true ∧ ∀ b ∈ cs, isWordPart b = true

instance : DecidablePred IsName
  | [] => .isFalse id
  | c :: cs =>
    -- through the list, and not through all bytes
    have : Decidable (∀ b ∈ cs, isWordPart b = true) := List.decidableBAll _ cs
    inferInstanceAs (Decidable (isWordStart c = true ∧ ∀ b ∈ cs, isWordPart b = true))

theorem lex_name {w rest : Text} (h : IsName w) (hend : ∀ b ∈ rest.head?, isWordPart b = false) :
    lex (w ++ rest) = (lex rest).map (.word w :: ·) := by
  cases w with
  | nil => exact h.elim
  | cons c cs =>
    obtain ⟨hstart, hpart⟩ := h
    have hne {b : UInt8} (hb : isWordStart b = false) : c ≠ b := fun hc => by
      rw [hc, hb] at hstart
      exact Bool.false_ne_true hstart
    have hspace : isSpace c = false := by
      simp only [isSpace, Bool.or_eq_false_iff, beq_eq_false_iff_ne]
      exact ⟨⟨⟨hne (by decide), hne (by decide)⟩, hne (by decide)⟩, hne (by decide)⟩
    have hnone : rest.takeWhile isWordPart = [] ∧ rest.dropWhile isWordPart = rest := by
      cases rest with
      | nil => exact ⟨rfl, rfl⟩
      | cons b bs =>
        have hb := hend b rfl
        exact ⟨List.takeWhile_cons_of_neg (by rw [hb]; decide), List.dropWhile_cons_of_neg (by rw [hb]; decide)⟩
    have hread : readToken c (cs ++ rest) = some (.word (c :: cs), rest) := by
      unfold readToken
      rw [if_neg (hne (by decide)), if_neg (hne (by decide)), if_pos hstart,
        List.takeWhile_append_of_pos hpart, List.dropWhile_append_of_pos hpart, hnone.1, hnone.2,
        List.append_nil]
    rw [List.cons_append, lex_cons hspace (hne (by decide)), hread]
    rfl

/-! ### Queries -/

inductive MatchOp
  | equal
  | notEqual
  | regex
  | notRegex
deriving DecidableEq

inductive FilterOp
  | contains
  | notContains
  | matching
  | notMatching
deriving DecidableEq

structure Matcher where
  name : Text
  op : MatchOp
  value : Text
deriving DecidableEq

structure LineFilter where
  op : FilterOp
  value : Text
deriving DecidableEq

/-- A stream selector with its line filters -/
structure Query where
  matchers : List Matcher
  filters : List LineFilter
deriving DecidableEq

def MatchOp.token : MatchOp → Token
  | .equal => .eq
  | .notEqual => .neq
  | .regex => .re
  | .notRegex => .nre

def FilterOp.token : FilterOp → Token
  | .contains => .pipeExact
  | .notContains => .neq
  | .matching => .pipeMatch
  | .notMatching => .nre

def matchOp : Token → Option MatchOp
  | .eq => some .equal
  | .neq => some .notEqual
  | .re => some .regex
  | .nre => some .notRegex
  | _ => none

def filterOp : Token → Option FilterOp
  | .pipeExact => some .contains
  | .neq => some .notContains
  | .pipeMatch => some .matching
  | .nre => some .notMatching
  | _ => none

/-- The words that are keywords -/
abbrev Keywords := List Text

variable (keywords : Keywords)

def readMatcher (w : Text) (op : Token) (v : Text) : Option Matcher :=
  if w ∈ keywords then none else (matchOp op).map (⟨w, ·, v⟩)

/-- The matchers behind the opening brace, up to the closing one, and what follows -/
def readMatchers : List Token → Option (List Matcher × List Token)
  | .word w :: op :: .literal v :: .closeBrace :: rest => (readMatcher keywords w op v).map ([·], rest)
  | .word w :: op :: .literal v :: .comma :: rest =>
    (readMatcher keywords w op v).bind fun m => (readMatchers rest).map fun r => (m :: r.1, r.2)
  | _ => none

def readFilters : List Token → Option (List LineFilter)
  | [] => some []
  | op :: .literal v :: rest => (filterOp op).bind fun op => (readFilters rest).map (⟨op, v⟩ :: ·)
  | _ => none

def readQuery : List Token → Option Query
  | .openBrace :: rest =>
    (readMatchers keywords rest).bind fun r => (readFilters r.2).map fun filters => ⟨r.1, filters⟩
  | _ => none

/-! ### The tokens of a query -/

def Matcher.tokens (m : Matcher) : List Token := [.word m.name, m.op.token, .literal m.value]

def MatchOp.text : MatchOp → Text
  | .equal => [0x3D]
  | .notEqual => [0x21, 0x3D]
  | .regex => [0x3D, 0x7E]
  | .notRegex => [0x21, 0x7E]

/-- A matcher whose value is put between double quotes as it is -/
def Matcher.text (m : Matcher) : Text := m.name ++ (m.op.text ++ quote :: (m.value ++ [quote]))

theorem lex_matcher_iff {m : Matcher} {rest : Text} {ts : List Token} {k : ℕ} (hname : IsName m.name)
    (hlead : quote ∉ rest.take k) (hsize : rest.length ≤ size ts+k) :
    lex (m.text ++ rest) = some (m.tokens ++ ts) ↔ Plain m.value ∧ lex rest = some ts := by
  have htext : m.text ++ rest = m.name ++ (m.op.text ++ quote :: (m.value ++ quote :: rest)) := by
    simp only [Matcher.text, List.append_assoc, List.cons_append, List.nil_append]
  have hop (s : Text) : lex (m.op.text ++ quote :: s) = (lex (quote :: s)).map (m.op.token :: ·) := by
    cases m.op <;> rw [MatchOp.text, List.cons_append, lex_cons (by decide) (by decide)] <;> rfl
  have hend : ∀ b ∈ (m.op.text ++ quote :: (m.value ++ quote :: rest)).head?, isWordPart b = false := by
    intro b hb
    cases hm : m.op <;> rw [hm] at hb <;> cases hb <;> decide
  rw [← lex_literal_iff hlead hsize, htext, lex_name hname hend, hop, Option.map_map]
  constructor
  · intro h
    obtain ⟨ts', hts', hcons⟩ := Option.map_eq_some_iff.mp h
    have hrest := (List.cons.inj (List.cons.inj hcons).2).2
    rw [hts', hrest]
    rfl
  · intro h
    rw [h]
    rfl

def FilterOp.text : FilterOp → Text
  | .contains => [0x7C, 0x3D]
  | .notContains => [0x21, 0x3D]
  | .matching => [0x7C, 0x7E]
  | .notMatching => [0x21, 0x7E]

def LineFilter.tokens (f : LineFilter) : List Token := [f.op.token, .literal f.value]

/-- A filter whose value is put between back quotes as it is -/
def LineFilter.text (f : LineFilter) : Text := 0x20 :: (f.op.text ++ 0x20 :: tick :: (f.value ++ [tick]))

theorem lex_filter_iff (f : LineFilter) : lex f.text = some f.tokens ↔ tick ∉ f.value := by
  have hop (s : Text) : lex (f.op.text ++ 0x20 :: s) = (lex (0x20 :: s)).map (f.op.token :: ·) := by
    cases f.op <;> rw [FilterOp.text, List.cons_append, lex_cons (by decide) (by decide)] <;> rfl
  rw [← lex_raw_iff, LineFilter.text, lex_space, hop, lex_space]
  constructor
  · intro h
    obtain ⟨ts', hts', hcons⟩ := Option.map_eq_some_iff.mp h
    rw [hts', (List.cons.inj hcons).2]
  · intro h
    rw [h]
    rfl

/-- What is written of a selector behind its opening brace -/
def selectorTokens : List Matcher → List Token
  | [] => []
  | [m] => m.tokens ++ [.closeBrace]
  | m :: ms => m.tokens ++ .comma :: selectorTokens ms

theorem selectorTokens_cons {m : Matcher} {ms : List Matcher} (h : ms ≠ []) :
    selectorTokens (m :: ms) = m.tokens ++ .comma :: selectorTokens ms := by
  cases ms with
  | nil => exact absurd rfl h
  | cons m' ms => rfl

def filterTokens (fs : List LineFilter) : List Token := fs.flatMap LineFilter.tokens

def Query.tokens (q : Query) : List Token := .openBrace :: (selectorTokens q.matchers ++ filterTokens q.filters)

theorem matchOp_iff {t : Token} {op : MatchOp} : matchOp t = some op ↔ t = op.token := by
  constructor
  · intro h
    cases t <;> cases h <;> rfl
  · intro h
    rw [h]
    cases op <;> rfl

theorem filterOp_iff {t : Token} {op : FilterOp} : filterOp t = some op ↔ t = op.token := by
  constructor
  · intro h
    cases t <;> cases h <;> rfl
  · intro h
    rw [h]
    cases op <;> rfl

variable {keywords} in
theorem readMatcher_iff {w v : Text} {op : Token} {m : Matcher} :
    readMatcher keywords w op v = some m ↔ m.name ∉ keywords ∧ [.word w, op, .literal v] = m.tokens := by
  unfold readMatcher
  split_ifs with hw
  · refine ⟨nofun, fun h => absurd hw ?_⟩
    cases h.2
    exact h.1
  · rw [Option.map_eq_some_iff]
    constructor
    · intro ⟨mop, hop, hm⟩
      rw [← hm, matchOp_iff.mp hop]
      exact ⟨hw, rfl⟩
    · intro ⟨_, hm⟩
      cases hm
      exact ⟨m.op, matchOp_iff.mpr rfl, rfl⟩

variable {keywords} in
/-- What is read as matchers are their tokens, with commas between them. -/
theorem readMatchers_some {ts rest : List Token} {ms : List Matcher} (h : readMatchers keywords ts = some (ms, rest)) :
    ms ≠ [] ∧ (∀ m ∈ ms, m.name ∉ keywords) ∧ ts = selectorTokens ms ++ rest := by
  fun_induction readMatchers keywords ts generalizing ms with
  | case1 w op v rest' =>
    obtain ⟨m, hm, hpair⟩ := Option.map_eq_some_iff.mp h
    obtain ⟨rfl, rfl⟩ := Prod.mk.inj hpair
    obtain ⟨hname, htokens⟩ := readMatcher_iff.mp hm
    refine ⟨List.cons_ne_nil _ _, List.forall_mem_singleton.mpr hname, ?_⟩
    rw [selectorTokens, ← htokens]
    rfl
  | case2 w op v rest' ih =>
    obtain ⟨m, hm, hmap⟩ := Option.bind_eq_some_iff.mp h
    obtain ⟨r, hr, hpair⟩ := Option.map_eq_some_iff.mp hmap
    obtain ⟨rfl, rfl⟩ := Prod.mk.inj hpair
    obtain ⟨hname, htokens⟩ := readMatcher_iff.mp hm
    obtain ⟨hne, hnames, hrest⟩ := ih hr
    refine ⟨List.cons_ne_nil _ _, List.forall_mem_cons.mpr ⟨hname, hnames⟩, ?_⟩
    rw [hrest, selectorTokens_cons hne, ← htokens]
    rfl
  | case3 => cases h

variable {keywords} in
theorem readMatchers_selectorTokens {ms : List Matcher} (hne : ms ≠ []) (hnames : ∀ m ∈ ms, m.name ∉ keywords)
    (rest : List Token) : readMatchers keywords (selectorTokens ms ++ rest) = some (ms, rest) := by
  induction ms with
  | nil => exact absurd rfl hne
  | cons m ms ih =>
    obtain ⟨hname, hnames⟩ := List.forall_mem_cons.mp hnames
    have hm : readMatcher keywords m.name m.op.token m.value = some m := readMatcher_iff.mpr ⟨hname, rfl⟩
    cases ms with
    | nil =>
      change (readMatcher keywords m.name m.op.token m.value).map ([·], rest) = _
      rw [hm]
      rfl
    | cons m' ms =>
      have hrest := ih (List.cons_ne_nil _ _) hnames
      change ((readMatcher keywords m.name m.op.token m.value).bind fun m =>
        (readMatchers keywords (selectorTokens (m' :: ms) ++ rest)).map fun r => (m :: r.1, r.2)) = _
      rw [hm, hrest]
      rfl

variable {keywords} in
theorem readMatchers_iff {ts rest : List Token} {ms : List Matcher} :
    readMatchers keywords ts = some (ms, rest) ↔
      ms ≠ [] ∧ (∀ m ∈ ms, m.name ∉ keywords) ∧ ts = selectorTokens ms ++ rest := by
  constructor
  · exact readMatchers_some
  · intro ⟨hne, hnames, hts⟩
    rw [hts]
    exact readMatchers_selectorTokens hne hnames rest

theorem readFilters_iff {ts : List Token} {fs : List LineFilter} :
    readFilters ts = some fs ↔ ts = filterTokens fs := by
  constructor
  · intro h
    fun_induction readFilters ts generalizing fs with
    | case1 =>
      cases h
      rfl
    | case2 t v rest ih =>
      obtain ⟨op, hop, hmap⟩ := Option.bind_eq_some_iff.mp h
      obtain ⟨fs', hfs, rfl⟩ := Option.map_eq_some_iff.mp hmap
      rw [filterOp_iff.mp hop, ih hfs]
      rfl
    | case3 => cases h
  · intro h
    rw [h]
    clear h
    induction fs with
    | nil => rfl
    | cons f fs ih =>
      change ((filterOp f.op.token).bind fun op => (readFilters (filterTokens fs)).map (⟨op, f.value⟩ :: ·)) = _
      rw [filterOp_iff.mpr rfl, ih]
      rfl

variable {keywords} in
/-- A text of tokens is a query in one way only. -/
theorem readQuery_iff {ts : List Token} {q : Query} :
    readQuery keywords ts = some q ↔
      q.matchers ≠ [] ∧ (∀ m ∈ q.matchers, m.name ∉ keywords) ∧ ts = q.tokens := by
  constructor
  · intro h
    unfold readQuery at h
    split at h
    · obtain ⟨⟨ms, rest⟩, hmatchers, hmap⟩ := Option.bind_eq_some_iff.mp h
      obtain ⟨fs, hfilters, rfl⟩ := Option.map_eq_some_iff.mp hmap
      obtain ⟨hne, hnames, rfl⟩ := readMatchers_iff.mp hmatchers
      have hrest : rest = filterTokens fs := readFilters_iff.mp hfilters
      exact ⟨hne, hnames, by rw [hrest]; rfl⟩
    · cases h
  · intro ⟨hne, hnames, hts⟩
    rw [hts]
    change ((readMatchers keywords (selectorTokens q.matchers ++ filterTokens q.filters)).bind fun r =>
      (readFilters r.2).map fun filters => (⟨r.1, filters⟩ : Query)) = _
    rw [readMatchers_iff.mpr ⟨hne, hnames, rfl⟩, Option.bind_some, readFilters_iff.mpr rfl]
    rfl

/-! ### The text of a query -/

/-- What is written behind the matchers -/
def closeText (fs : List LineFilter) : Text := 0x7D :: fs.flatMap LineFilter.text

/-- A query whose values are put between quotes as they are -/
def Query.text (q : Query) : Text :=
  0x7B :: ([0x2C, 0x20].intercalate (q.matchers.map Matcher.text) ++ closeText q.filters)

theorem IsName.nul_not_mem {w : Text} (h : IsName w) : 0 ∉ w := by
  cases w with
  | nil => exact h.elim
  | cons c cs =>
    intro hmem
    obtain hc | hcs := List.mem_cons.mp hmem
    · rw [← hc] at h
      exact absurd h.1 (by decide)
    · exact absurd (h.2 0 hcs) (by decide)

/-- A matcher begins with a letter. -/
theorem IsName.quote_not_mem_take {w : Text} (h : IsName w) (rest : Text) : quote ∉ (w ++ rest).take 1 := by
  cases w with
  | nil => exact h.elim
  | cons c cs =>
    have hc : quote ≠ c := fun hc => by
      rw [← hc] at h
      exact absurd h.1 (by decide)
    exact List.not_mem_cons_of_ne_of_not_mem hc List.not_mem_nil

theorem Matcher.text_length (m : Matcher) : m.text.length = size m.tokens := by
  have hop : m.op.text.length = m.op.token.size := by cases m.op <;> rfl
  simp only [Matcher.text, Matcher.tokens, size, List.length_append, List.length_cons, List.length_nil, Token.size, hop]

theorem LineFilter.text_length (f : LineFilter) : f.text.length = size f.tokens+2 := by
  have hop : f.op.text.length = f.op.token.size := by cases f.op <;> rfl
  simp only [LineFilter.text, LineFilter.tokens, size, List.length_append, List.length_cons, List.length_nil,
    Token.size, hop]
  omega

theorem size_cons (t : Token) (ts : List Token) : size (t :: ts) = t.size+size ts := rfl

theorem size_append (ts ts' : List Token) : size (ts ++ ts') = size ts+size ts' := by
  induction ts with
  | nil => exact (Nat.zero_add _).symm
  | cons t ts ih => rw [List.cons_append, size_cons, size_cons, ih, Nat.add_assoc]

/-- A token of one sign in front of what is scanned -/
theorem lex_sign_iff {c : UInt8} {t : Token} {rest : Text} {ts : List Token} (hspace : isSpace c = false)
    (hcomment : c ≠ 0x23) (ht : readToken c rest = some (t, rest)) :
    lex (c :: rest) = some (t :: ts) ↔ lex rest = some ts := by
  rw [lex_cons hspace hcomment, ht, Option.bind_some]
  cases lex rest with
  | none => exact iff_of_false nofun nofun
  | some ts' => rw [Option.map_some, Option.some_inj, Option.some_inj, List.cons_inj_right]

theorem lex_closeText_iff {fs : List LineFilter} (h : fs.length ≤ 1) :
    lex (closeText fs) = some (.closeBrace :: filterTokens fs) ↔ ∀ f ∈ fs, tick ∉ f.value := by
  rw [closeText, lex_sign_iff (by decide) (by decide) rfl]
  match fs, h with
  | [], _ => exact iff_of_true rfl nofun
  | [f], _ =>
    rw [List.forall_mem_singleton, ← lex_filter_iff, List.flatMap_singleton, filterTokens, List.flatMap_singleton]

theorem closeText_lead (fs : List LineFilter) : quote ∉ (closeText fs).take 2 := by
  cases fs with
  | nil => decide
  | cons f fs =>
    change quote ∉ [0x7D, 0x20]
    decide

theorem closeText_length {fs : List LineFilter} (h : fs.length ≤ 1) :
    (closeText fs).length ≤ size (.closeBrace :: filterTokens fs)+2 := by
  match fs, h with
  | [], _ => exact Nat.le_add_right _ _
  | [f], _ =>
    rw [closeText, List.length_cons, List.flatMap_singleton, f.text_length, size_cons, filterTokens,
      List.flatMap_singleton]
    simp only [Token.size]
    omega

/-- With two matchers and one filter at most, what stands behind a value begins with no quote. -/
theorem lex_text_iff {q : Query} (hmatchers : q.matchers ≠ [] ∧ q.matchers.length ≤ 2)
    (hfilters : q.filters.length ≤ 1) (hnames : ∀ m ∈ q.matchers, IsName m.name) :
    lex q.text = some q.tokens ↔
      (∀ m ∈ q.matchers, Plain m.value) ∧ ∀ f ∈ q.filters, tick ∉ f.value := by
  obtain ⟨ms, fs⟩ := q
  have hrest := lex_closeText_iff hfilters
  have hlead : quote ∉ (closeText fs).take 2 := closeText_lead fs
  have hsize : (closeText fs).length ≤ size (.closeBrace :: filterTokens fs)+2 := closeText_length hfilters
  match ms, hmatchers with
  | [m], _ =>
    have hname := hnames m List.mem_cons_self
    have htext : Query.text ⟨[m], fs⟩ = 0x7B :: (m.text ++ closeText fs) := by
      rw [Query.text, List.map_singleton, List.intercalate_singleton]
    have htokens : Query.tokens ⟨[m], fs⟩ = .openBrace :: (m.tokens ++ .closeBrace :: filterTokens fs) := rfl
    rw [htext, htokens, lex_sign_iff (by decide) (by decide) rfl, lex_matcher_iff hname hlead hsize, hrest,
      List.forall_mem_singleton]
  | [m, m'], _ =>
    have hname := hnames m List.mem_cons_self
    have hname' := hnames m' (List.mem_cons_of_mem _ List.mem_cons_self)
    -- what follows the first value begins with no quote, and its tokens are as long as it is
    have hlead' : quote ∉ (0x2C :: 0x20 :: (m'.text ++ closeText fs)).take 3 := by
      refine List.not_mem_cons_of_ne_of_not_mem (by decide) ?_
      refine List.not_mem_cons_of_ne_of_not_mem (by decide) ?_
      rw [Matcher.text, List.append_assoc]
      exact hname'.quote_not_mem_take _
    have hsize' : (0x2C :: 0x20 :: (m'.text ++ closeText fs)).length ≤
        size (.comma :: (m'.tokens ++ .closeBrace :: filterTokens fs))+3 := by
      rw [size_cons, size_append, List.length_cons, List.length_cons, List.length_append, m'.text_length]
      simp only [Token.size]
      omega
    have htext : Query.text ⟨[m, m'], fs⟩ = 0x7B :: (m.text ++ 0x2C :: 0x20 :: (m'.text ++ closeText fs)) := by
      rw [Query.text, List.map_cons, List.map_singleton, List.intercalate_cons_cons, List.intercalate_singleton]
      simp only [List.append_assoc, List.cons_append, List.nil_append]
    have htokens : Query.tokens ⟨[m, m'], fs⟩ =
        .openBrace :: (m.tokens ++ .comma :: (m'.tokens ++ .closeBrace :: filterTokens fs)) := rfl
    rw [htext, htokens, lex_sign_iff (by decide) (by decide) rfl, lex_matcher_iff hname hlead' hsize',
      lex_sign_iff (by decide) (by decide) rfl, lex_space, lex_matcher_iff hname' hlead hsize, hrest,
      List.forall_mem_cons, List.forall_mem_singleton, and_assoc]

/-! ### NUL -/

theorem not_mem_intercalate {b : UInt8} {sep : Text} (hsep : b ∉ sep) (ls : List Text) :
    b ∉ sep.intercalate ls ↔ ∀ l ∈ ls, b ∉ l := by
  induction ls with
  | nil => exact iff_of_true List.not_mem_nil nofun
  | cons l ls ih =>
    cases ls with
    | nil => rw [List.intercalate_singleton, List.forall_mem_singleton]
    | cons l' ls =>
      rw [List.intercalate_cons_cons, List.mem_append, List.mem_append, not_or, not_or, ih]
      constructor
      · intro h
        exact List.forall_mem_cons.mpr ⟨h.1.1, h.2⟩
      · intro h
        obtain ⟨hl, hls⟩ := List.forall_mem_cons.mp h
        exact ⟨⟨hl, hsep⟩, hls⟩

/-- Only a value brings the character NUL into the text of a query. -/
theorem nul_not_mem_text {q : Query} (hnames : ∀ m ∈ q.matchers, IsName m.name) :
    0 ∉ q.text ↔ (∀ m ∈ q.matchers, 0 ∉ m.value) ∧ ∀ f ∈ q.filters, 0 ∉ f.value := by
  have hmatcher (m : Matcher) (hm : m ∈ q.matchers) : 0 ∉ m.text ↔ 0 ∉ m.value := by
    have hname : 0 ∉ m.name := (hnames m hm).nul_not_mem
    have hop : 0 ∉ m.op.text := by cases m.op <;> decide
    simp only [Matcher.text, List.mem_append, List.mem_cons, List.not_mem_nil, or_false, not_or]
    exact ⟨fun h => h.2.2.2.1, fun h => ⟨hname, hop, by decide, h, by decide⟩⟩
  have hfilter (f : LineFilter) : 0 ∉ f.text ↔ 0 ∉ f.value := by
    have hop : 0 ∉ f.op.text := by cases f.op <;> decide
    simp only [LineFilter.text, List.mem_append, List.mem_cons, List.not_mem_nil, or_false, not_or]
    exact ⟨fun h => h.2.2.2.2.1, fun h => ⟨by decide, hop, by decide, by decide, h, by decide⟩⟩
  have hsep : (0 : UInt8) ∉ [0x2C, 0x20] := by decide
  have hselector := not_mem_intercalate hsep (q.matchers.map Matcher.text)
  rw [List.forall_mem_map, forall₂_congr hmatcher] at hselector
  have hfilters : 0 ∉ q.filters.flatMap LineFilter.text ↔ ∀ f ∈ q.filters, 0 ∉ f.value := by
    simp only [List.mem_flatMap, not_exists, not_and]
    exact forall₂_congr fun f _ => hfilter f
  rw [Query.text, closeText, List.mem_cons, List.mem_append, List.mem_cons, not_or, not_or, not_or, hselector,
    hfilters]
  exact ⟨fun h => ⟨h.2.1, h.2.2.2⟩, fun h => ⟨by decide, h.1, by decide, h.2⟩⟩

/-- The query that a text is; a text with the character NUL is not scanned. -/
def parse (s : Text) : Option Query := if 0 ∈ s then none else (lex s).bind (readQuery keywords)

variable {keywords} in
theorem parse_iff {s : Text} {q : Query} :
    parse keywords s = some q ↔ (0 ∉ s ∧ lex s = some q.tokens) ∧
      q.matchers ≠ [] ∧ ∀ m ∈ q.matchers, m.name ∉ keywords := by
  unfold parse
  split_ifs with h0
  · exact ⟨nofun, fun h => absurd h0 h.1.1⟩
  · rw [Option.bind_eq_some_iff]
    constructor
    · intro ⟨ts, hts, hq⟩
      obtain ⟨hne, hnames, rfl⟩ := readQuery_iff.mp hq
      exact ⟨⟨h0, hts⟩, hne, hnames⟩
    · intro ⟨⟨_, hts⟩, hne, hnames⟩
      exact ⟨_, hts, readQuery_iff.mpr ⟨hne, hnames, rfl⟩⟩

variable {keywords} in
/-- A text of few matchers and filters is read as the query it was made of exactly if each value is plain. -/
theorem parse_text_iff {q : Query} (hmatchers : q.matchers ≠ [] ∧ q.matchers.length ≤ 2)
    (hfilters : q.filters.length ≤ 1) (hnames : ∀ m ∈ q.matchers, IsName m.name ∧ m.name ∉ keywords) :
    parse keywords q.text = some q ↔
      (∀ m ∈ q.matchers, Plain m.value ∧ 0 ∉ m.value) ∧ ∀ f ∈ q.filters, tick ∉ f.value ∧ 0 ∉ f.value := by
  have hnames' : ∀ m ∈ q.matchers, IsName m.name := fun m hm => (hnames m hm).1
  rw [parse_iff, nul_not_mem_text hnames', lex_text_iff hmatchers hfilters hnames', forall₂_and, forall₂_and]
  constructor
  · intro h
    exact ⟨⟨h.1.2.1, h.1.1.1⟩, h.1.2.2, h.1.1.2⟩
  · intro h
    exact ⟨⟨⟨h.1.2, h.2.2⟩, h.1.1, h.2.1⟩, hmatchers.1, fun m hm => (hnames m hm).2⟩

end LogQL
