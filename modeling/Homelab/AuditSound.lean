import Homelab.AuditRestart
import Homelab.CanonicalInjective

/-! Whatever is done to the lines of a log, `audit verify` accepts nothing but a prefix
of what was appended, as long as nobody else can compute its HMACs. -/
namespace Homelab
open Js

/-! ### Numbers -/

theorem ofNat_inj {m n : ℕ} (h : JsNumber.ofNat m = .ofNat n) : m = n := by
  have hd : Decimal.ofNat m = Decimal.ofNat n := JsNumber.fin.inj h
  rw [(Decimal.ofNat_spec m).2.2, (Decimal.ofNat_spec n).2.2, hd]

theorem strictEq_ofNat_succ {x : JsNumber} {n : ℕ} (h : x.strictEq (.ofNat (n+1)) = true) :
    x = .ofNat (n+1) := by
  have hdigits : (Decimal.ofNat (n+1)).digits ≠ 0 := by
    intro hzero
    have hvalue := (Decimal.ofNat_spec (n+1)).2.2
    rw [hzero, zero_mul] at hvalue
    exact Nat.succ_ne_zero n hvalue
  cases x with
  | fin a =>
    have heq : a = Decimal.ofNat (n+1) := by
      simpa [JsNumber.strictEq, JsNumber.ofNat, hdigits] using h
    rw [heq]
    rfl
  | nan => cases h
  | inf s => cases h

/-! ### Logs and edits -/

/-- A log that sessions of any writers with the key have produced from genesis. A session
may end at any await. -/
inductive KeyedLog (rt : Runtime) (key : Bytes) : Option Bytes → List AuditEntry → Prop
  | absent : KeyedLog rt key none []
  | session {file : Option Bytes} {es : List AuditEntry} {w : AuditWriter} {s : WriterState}
      {calls : List AppendCall} (h : KeyedLog rt key file es) (hkey : w.key = key)
      (hrun : (auditMutex rt w).Runs (.fresh file) (s, calls)) :
      KeyedLog rt key s.file (es ++ entriesOf calls)

/-- The texts that the appends have put through the HMAC. -/
def SignedText (es : List AuditEntry) (m : JsString) : Prop :=
  ∃ (i : ℕ) (hi : i < es.length) (text : JsString),
    canonicalJson (.obj es[i].toEntryMinus.fields) = .ok text ∧ m = hmacBefore es i ++ text

/-- The text that the verifier splits into lines. -/
def logText (file : Bytes) : JsString :=
  let raw := decodeUtf8 file
  if raw.getLast? = some 0x0A then raw.dropLast else raw

/-- The lines of the file that are not empty. -/
def recordLines (file : Bytes) : List JsString := ((logText file).splitOn 0x0A).filter (· ≠ [])

/-- The object that the verifier signs for a line. -/
def lineMinus (v : JsValue) (seq : JsNumber) : Fields :=
  [(js "actor", property (js "actor") v), (js "event", property (js "event") v),
    (js "payload", property (js "payload") v), (js "platform", property (js "platform") v),
    (js "seq", .num seq), (js "timestamp", property (js "timestamp") v)]

/-- The values that the verifier's `prevHmac` may take. -/
def Precedes (file : Bytes) (prevHmac : JsString) : Prop :=
  prevHmac = genesisPrevHmac ∨ ∃ line ∈ recordLines file, ∃ v,
    jsonParse line = some v ∧ property (js "hmac") v = .str prevHmac

/-- The file offers `hmac` as the HMAC of `m`. -/
def Offers (file : Bytes) (m hmac : JsString) : Prop :=
  ∃ prevHmac text, Precedes file prevHmac ∧ m = prevHmac ++ text ∧
    ∃ line ∈ recordLines file, ∃ v seq, jsonParse line = some v ∧
      property (js "seq") v = .num seq ∧ property (js "hmac") v = .str hmac ∧
      canonicalJson (.obj (lineMinus v seq)) = .ok text

/-- No HMAC that the file offers is a forgery: what has it was signed by an append. -/
def Unforged (rt : Runtime) (key : Bytes) (es : List AuditEntry) (file : Bytes) : Prop :=
  ∀ m hmac, Offers file m hmac → rt.hmacSha256 key m = hmac → SignedText es m

def tupleKeys : List JsString :=
  [js "actor", js "event", js "payload", js "platform", js "seq", js "timestamp"]

/-- The line has the values of the entry, up to the order of keys and the sign of zero. -/
def SameTuple (line : JsString) (e : AuditEntry) : Prop :=
  ∃ v, jsonParse line = some v ∧
    ∀ k ∈ tupleKeys, canon (property k v) = canon (property k (.obj e.fields))

variable {rt : Runtime} {key : Bytes} {es : List AuditEntry}

theorem KeyedLog.chained {file : Option Bytes} (h : KeyedLog rt key file es) :
    Holds file es ∧ Chained rt key genesisPrevHmac 0 es := by
  induction h with
  | absent => exact ⟨rfl, trivial⟩
  | session h hkey hrun ih =>
    subst hkey
    obtain ⟨hlog, _⟩ := runs_chained ⟨ih.1, ih.2⟩ ⟨rfl, rfl⟩ hrun
    exact ⟨hlog.holds, hlog.chained⟩

/-! ### One accepted line -/

theorem canon_minus {fs : Fields} (h : fs.map Prod.fst = tupleKeys) :
    canon (.obj fs) = .obj (fs.map fun f => (f.1, canon f.2)) := by
  have hsorted : (tupleKeys : List JsString).Pairwise (· ≤ ·) := by decide
  rw [canon, canonFields_eq, sortKeys_of_sorted]
  rw [List.map_map]
  exact h ▸ hsorted

/-- A line that signs the same text as an entry has the values of the entry. -/
theorem sameTuple_of_text {line : JsString} {v : JsValue} {seq : JsNumber} {e : AuditEntry}
    {text : JsString} (hparse : jsonParse line = some v) (hseq : property (js "seq") v = .num seq)
    (hline : canonicalJson (.obj (lineMinus v seq)) = .ok text)
    (hentry : canonicalJson (.obj e.toEntryMinus.fields) = .ok text) :
    SameTuple line e ∧ canon (.num seq) = canon (.num e.seq) := by
  have hcanon := encode_inj _ hline hentry
  rw [canon_minus rfl, canon_minus rfl] at hcanon
  simp only [JsValue.obj.injEq, lineMinus, EntryMinus.fields, List.map_cons, List.map_nil,
    List.cons.injEq, Prod.mk.injEq, true_and, and_true] at hcanon
  obtain ⟨hactor, hevent, hpayload, hplatform, hnumber, htimestamp⟩ := hcanon
  refine ⟨⟨v, hparse, ?_⟩, hnumber⟩
  intro k hk
  simp only [tupleKeys, List.mem_cons, List.not_mem_nil, or_false] at hk
  rcases hk with rfl | rfl | rfl | rfl | rfl | rfl
  · exact hactor
  · exact hevent
  · exact hpayload
  · exact hplatform
  · rw [hseq]
    exact hnumber
  · exact htimestamp

theorem canon_ofNat (n : ℕ) : canon (.num (.ofNat n)) = .num (.ofNat n) := posZero_ofNat n

theorem hmacBefore_length (hlen : ∀ m, (rt.hmacSha256 key m).length = 64)
    (h : Chained rt key genesisPrevHmac 0 es) (i : ℕ) (hi : i < es.length) :
    (hmacBefore es i).length = 64 := by
  cases i with
  | zero => rfl
  | succ i =>
    have hentry := h.get i (by omega)
    obtain ⟨text, _, hhmac⟩ := hentry.hmac
    have hlast : hmacBefore es (i+1) = es[i].hmac := by
      rw [hmacBefore, List.take_add_one, List.getElem?_eq_getElem (by omega), Option.toList_some,
        lastHmac_snoc]
    rw [hlast, hhmac, hlen]

/-- What the verifier asks of a line before it goes on. -/
structure AcceptsLine (rt : Runtime) (key : Bytes) (st st' : VerifyState) (line : JsString)
    (v : JsValue) (seq : JsNumber) (text : JsString) : Prop where
  parse : jsonParse line = some v
  number : property (js "seq") v = .num seq
  hmac : property (js "hmac") v = .str st'.prevHmac
  next : seq.strictEq (st.prevSeq.add (.ofNat 1)) = true
  canonical : canonicalJson (.obj (lineMinus v seq)) = .ok text
  digest : rt.hmacSha256 key (st.prevHmac ++ text) = st'.prevHmac
  prevSeq : st'.prevSeq = seq

theorem verifyLine_accepts {st st' : VerifyState} {line : JsString} (hne : line ≠ [])
    (h : verifyLine rt key st line = .ok st') (hok : st'.failedAtSeq = none) :
    ∃ v seq text, AcceptsLine rt key st st' line v seq text := by
  have hfail (reason : VerifyReason) (seq : JsNumber)
      (heq : (Except.ok (st.fail reason seq) : Except JsString VerifyState) = .ok st') : False := by
    rw [← Except.ok.inj heq] at hok
    cases hok
  rw [verifyLine, if_neg hne] at h
  cases hparse : jsonParse line with
  | none =>
    rw [hparse] at h
    exact (hfail _ _ h).elim
  | some v =>
    rw [hparse] at h
    split at h
    · rename_i hnull
      cases hnull
    · cases h
    rename_i w _ hw
    obtain rfl := Option.some.inj hw
    split at h
    · rename_i seq hmac hseq hhmac
      split_ifs at h with hnext
      · change (canonicalJson (.obj (lineMinus v seq)) >>= _) = _ at h
        cases htext : canonicalJson (.obj (lineMinus v seq)) with
        | error message =>
          rw [htext] at h
          cases h
        | ok text =>
          rw [htext] at h
          change (if _ then _ else _) = _ at h
          split_ifs at h with hdigest
          · obtain rfl := Except.ok.inj h
            exact ⟨v, seq, text, hparse, hseq, hhmac, hnext, htext, hdigest, rfl⟩
          · exact (hfail _ _ h).elim
      · exact (hfail _ _ h).elim
    · exact (hfail _ _ h).elim

/-- What the loop knows after `n` accepted lines. -/
structure Reached (file : Bytes) (st : VerifyState) (n : ℕ) : Prop where
  prevSeq : st.prevSeq = .ofNat n
  prevHmac : st.prevHmac.length = 64
  precedes : Precedes file st.prevHmac

/-- An accepted line has the values of the entry whose turn it is. -/
theorem AcceptsLine.sameTuple {file : Bytes} {st st' : VerifyState} {line : JsString} {n : ℕ}
    {v : JsValue} {seq : JsNumber} {text : JsString}
    (hlen : ∀ m, (rt.hmacSha256 key m).length = 64) (hlog : Chained rt key genesisPrevHmac 0 es)
    (hunforged : Unforged rt key es file) (hst : Reached file st n) (hline : line ∈ recordLines file)
    (h : AcceptsLine rt key st st' line v seq text) :
    ∃ hn : n < es.length, SameTuple line es[n] ∧ Reached file st' (n+1) := by
  have hoffers : Offers file (st.prevHmac ++ text) st'.prevHmac :=
    ⟨_, text, hst.precedes, rfl, line, hline, v, seq, h.parse, h.number, h.hmac, h.canonical⟩
  obtain ⟨i, hi, text', htext', heq⟩ := hunforged _ _ hoffers h.digest
  -- both texts stand after an HMAC of 64 digits, so the HMAC's input splits in one way
  have hprefix : st.prevHmac.length = (hmacBefore es i).length := by
    rw [hst.prevHmac, hmacBefore_length hlen hlog i hi]
  obtain ⟨_, rfl⟩ := List.append_inj heq hprefix
  obtain ⟨htuple, hnumber⟩ := sameTuple_of_text h.parse h.number h.canonical htext'
  have hnext := h.next
  rw [hst.prevSeq, JsNumber.ofNat_add] at hnext
  have hseq : seq = .ofNat (n+1) := strictEq_ofNat_succ hnext
  have hindex : n = i := by
    rw [hseq, (hlog.get i hi).seq, canon_ofNat, canon_ofNat] at hnumber
    have hnat := ofNat_inj (JsValue.num.inj hnumber)
    omega
  subst hindex
  refine ⟨hi, htuple, h.prevSeq.trans hseq, ?_, Or.inr ⟨line, hline, v, h.parse, h.hmac⟩⟩
  rw [← h.digest]
  exact hlen _

theorem verifyLine_nil (st : VerifyState) : verifyLine rt key st [] = .ok st := if_pos rfl

theorem verifyLines_prefix {file : Bytes} {lines : List JsString} {st st' : VerifyState} {n : ℕ}
    (hlen : ∀ m, (rt.hmacSha256 key m).length = 64) (hlog : Chained rt key genesisPrevHmac 0 es)
    (hunforged : Unforged rt key es file) (hst : Reached file st n)
    (hlines : ∀ line ∈ lines, line ≠ [] → line ∈ recordLines file)
    (h : verifyLines rt key st lines = .ok st') (hok : st'.failedAtSeq = none) :
    ∃ accepted, accepted <+: es.drop n ∧
      List.Forall₂ SameTuple (lines.filter (· ≠ [])) accepted := by
  induction lines generalizing st n with
  | nil => exact ⟨[], List.nil_prefix, .nil⟩
  | cons line lines ih =>
    have hrest : ∀ l ∈ lines, l ≠ [] → l ∈ recordLines file := by
      intro l hl
      exact hlines l (List.mem_cons_of_mem _ hl)
    rw [verifyLines] at h
    cases hstep : verifyLine rt key st line with
    | error message =>
      rw [hstep] at h
      cases h
    | ok st₁ =>
      rw [hstep] at h
      change (if _ then _ else _) = _ at h
      split_ifs at h with hfailed
      · rw [Except.ok.inj h, hok] at hfailed
        cases hfailed
      have hgoes : st₁.failedAtSeq = none := Option.not_isSome_iff_eq_none.mp hfailed
      by_cases hempty : line = []
      · subst hempty
        rw [verifyLine_nil] at hstep
        obtain rfl := Except.ok.inj hstep
        obtain ⟨accepted, hprefix, hsame⟩ := ih hst hrest h
        refine ⟨accepted, hprefix, ?_⟩
        rwa [List.filter_cons_of_neg (by simp)]
      · obtain ⟨v, seq, text, haccepts⟩ := verifyLine_accepts hempty hstep hgoes
        have hmem := hlines line List.mem_cons_self hempty
        obtain ⟨hn, hsame, hst₁⟩ := haccepts.sameTuple hlen hlog hunforged hst hmem
        obtain ⟨accepted, hprefix, hsames⟩ := ih hst₁ hrest h
        refine ⟨es[n] :: accepted, ?_, ?_⟩
        · rw [List.drop_eq_getElem_cons hn]
          exact (List.prefix_cons_inj _).mpr hprefix
        · rw [List.filter_cons_of_pos (by simpa using hempty)]
          exact .cons hsame hsames

/-- Only a loop that has ended without a failure is reported with exit code 0. -/
theorem VerifyState.report_ok {st : VerifyState} {json : Bool}
    (h : (st.report json).exitCode = exitOk) : st.failedAtSeq = none := by
  cases hfailed : st.failedAtSeq with
  | none => rfl
  | some seq =>
    simp only [VerifyState.report, hfailed] at h
    split_ifs at h
    · cases h
    · cases h

/-- The lines of an untouched log. -/
theorem recordLines_log (es : List AuditEntry) :
    recordLines (es.flatMap AuditEntry.bytes) = es.map AuditEntry.text := by
  cases es with
  | nil => rfl
  | cons e es =>
    have hno : ∀ l ∈ (e :: es).map AuditEntry.text, (0x0A : CodeUnit) ∉ l := by
      intro l hl
      obtain ⟨d, _, rfl⟩ := List.mem_map.mp hl
      exact d.text_noNewline
    have htext : logText ((e :: es).flatMap AuditEntry.bytes) =
        [0x0A].intercalate ((e :: es).map AuditEntry.text) := by
      simp only [logText, decodeUtf8_log, flatMap_lines, List.getLast?_concat,
        List.dropLast_concat, ↓reduceIte]
    rw [recordLines, htext, List.splitOn_intercalate _ hno (List.cons_ne_nil _ _)]
    apply List.filter_eq_self.mpr
    intro l hl
    obtain ⟨d, _, rfl⟩ := List.mem_map.mp hl
    simpa using d.text_ne_nil

/-- The verifier reads from an untouched line the HMAC and the text of its entry. -/
theorem Follows.offers {prevHmac hmac text : JsString} {n : ℕ} {e : AuditEntry} {v : JsValue}
    {seq : JsNumber} (h : Follows rt key prevHmac n e) (hparse : jsonParse e.text = some v)
    (hseq : property (js "seq") v = .num seq) (hhmac : property (js "hmac") v = .str hmac)
    (htext : canonicalJson (.obj (lineMinus v seq)) = .ok text) :
    hmac = e.hmac ∧ canonicalJson (.obj e.toEntryMinus.fields) = .ok text := by
  rw [e.parse_text h.payload (by rw [h.seq]; rfl)] at hparse
  obtain rfl := Option.some.inj hparse
  rw [e.property_posZero] at hseq hhmac
  change (JsValue.num e.seq).posZero = _ at hseq
  rw [h.seq, posZero_ofNat] at hseq
  obtain rfl := JsValue.num.inj hseq
  refine ⟨(JsValue.str.inj hhmac).symm, ?_⟩
  rw [← canonicalJson_minus h.seq]
  exact htext

def firstDigest : JsString := js "961d1f33b9fcf47d1c32f3c384dd2ec6a41ecdf61891d4ac0c32cb87018e4fcf"

def secondDigest : JsString := js "af125d18846edb600850aa59b5a6ff08d5bd22773ea8e9c5f49c2c47baa56fba"

/-- The digests that HMAC-SHA256 gives for the text of the sample's first entry, after the
genesis value and after that entry's own HMAC. -/
def twoDigests : Runtime where
  hmacSha256 _ m := if m.take 64 = genesisPrevHmac then firstDigest else secondDigest
  syntaxMessage _ := js "Unexpected end of JSON input"

theorem twoDigests_length (m : JsString) : (twoDigests.hmacSha256 key m).length = 64 := by
  simp only [twoDigests]
  split_ifs <;> rfl

/-- In a log of one entry that is left alone nothing is forged. -/
theorem unforged_one {e : AuditEntry} (h : Follows twoDigests key genesisPrevHmac 0 e) :
    Unforged twoDigests key [e] ([e].flatMap AuditEntry.bytes) := by
  rintro m hmac ⟨prevHmac, text, hprecedes, rfl, line, hline, v, seq, hparse, hseq, hhmac, htext⟩ hm
  have hmem {l : JsString} (hl : l ∈ recordLines ([e].flatMap AuditEntry.bytes)) : l = e.text := by
    rw [recordLines_log] at hl
    exact List.mem_singleton.mp hl
  rw [hmem hline] at hparse
  obtain ⟨rfl, htext'⟩ := h.offers hparse hseq hhmac htext
  obtain ⟨signed, _, hsigned⟩ := h.hmac
  have hfirst : e.hmac = firstDigest := by
    have htake : (genesisPrevHmac ++ signed).take 64 = genesisPrevHmac := List.take_left' rfl
    simp only [hsigned, twoDigests, htake, ↓reduceIte]
  rcases hprecedes with rfl | ⟨line', hline', v', hparse', hprev⟩
  · exact ⟨0, Nat.one_pos, text, htext', rfl⟩
  · rw [hmem hline', ← hmem hline] at hparse'
    rw [hmem hline, hparse] at hparse'
    obtain rfl := Option.some.inj hparse'
    rw [hhmac] at hprev
    obtain rfl := JsValue.str.inj hprev
    rw [hfirst] at hm
    have htake : (firstDigest ++ text).take 64 = firstDigest := List.take_left' rfl
    simp only [twoDigests, htake] at hm
    exact absurd hm (by decide)

end Homelab
