import Homelab.AuditWriter
import Homelab.JsonNesting

/-! Log files as the lines of a chain of entries, and what `recoverState` makes
of them: it sees the last entry when its line fits the tail window, and refuses
the file when it does not. -/
namespace Homelab
open Js

/-! ### Lines -/

def AuditEntry.text (e : AuditEntry) : JsString := jsonText (.obj e.fields)

def AuditEntry.bytes (e : AuditEntry) : Bytes := encodeUtf8 (e.text ++ [0x0A])

/-- The file holds the lines of the entries; a missing file holds none. -/
def Holds (file : Option Bytes) (es : List AuditEntry) : Prop :=
  file.getD [] = es.flatMap AuditEntry.bytes

theorem Holds.append {file : Option Bytes} {es : List AuditEntry} (h : Holds file es)
    (e : AuditEntry) : Holds (some (file.getD [] ++ e.bytes)) (es ++ [e]) := by
  change file.getD [] ++ e.bytes = _
  rw [h, List.flatMap_append, List.flatMap_singleton]

theorem nullable_isJson (p : Option JsString) : (nullable p).isJson = true := by cases p <;> rfl

theorem EntryMinus.isJson {minus : EntryMinus} (hp : minus.payload.isJson = true)
    (hs : minus.seq.isFinite = true) : (JsValue.obj minus.fields).isJson = true := by
  have hkeys : OwnOrder (minus.fields.map Prod.fst) := by
    change OwnOrder [js "actor", js "event", js "payload", js "platform", js "seq", js "timestamp"]
    decide
  have hfields : fieldsJson minus.fields = true := by
    simp only [EntryMinus.fields, fieldsJson, hp, nullable_isJson, JsValue.isJson, hs, Bool.and_self]
  simp only [JsValue.isJson, hkeys, hfields, decide_true, Bool.and_self]

theorem AuditEntry.isJson {e : AuditEntry} (h : e.payload.isJson = true)
    (hs : e.seq.isFinite = true) :
    (JsValue.obj e.fields).isJson = true := by
  have hkeys : OwnOrder (e.fields.map Prod.fst) := by
    change OwnOrder [js "actor", js "event", js "payload", js "platform", js "seq",
      js "timestamp", js "hmac"]
    decide
  have hfields : fieldsJson e.fields = true := by
    have hseq : e.seq.isFinite = true := hs
    simp only [AuditEntry.fields, EntryMinus.fields, List.cons_append, List.nil_append, fieldsJson,
      h, nullable_isJson, JsValue.isJson, hseq, Bool.and_self]
  simp only [JsValue.isJson, hkeys, hfields, decide_true, Bool.and_self]

/-- What `JSON.parse` reads from a line of the log. -/
theorem AuditEntry.parse_text {e : AuditEntry} (h : e.payload.isJson = true)
    (hs : e.seq.isFinite = true) : jsonParse e.text = some (.obj (posZeroFields e.fields)) :=
  jsonParse_jsonText _ (AuditEntry.isJson h hs)

theorem AuditEntry.getOwn_hmac (e : AuditEntry) :
    getOwn (js "hmac") (posZeroFields e.fields) = .str e.hmac := by
  rw [getOwn_posZeroFields]
  rfl

theorem AuditEntry.getOwn_seq (e : AuditEntry) :
    getOwn (js "seq") (posZeroFields e.fields) = (JsValue.num e.seq).posZero := by
  rw [getOwn_posZeroFields]
  rfl

theorem AuditEntry.text_noNewline (e : AuditEntry) : NoNewline e.text := jsonText_noNewline _

theorem newline_paired : Paired [0x0A] := .unit _ (by decide) (by decide)

theorem AuditEntry.line_paired (e : AuditEntry) : Paired (e.text ++ [0x0A]) :=
  (jsonText_paired _).append newline_paired

theorem AuditEntry.bytes_eq (e : AuditEntry) : e.bytes = encodeUtf8 e.text ++ [0x0A] := by
  have hpaired : Paired e.text := jsonText_paired _
  rw [AuditEntry.bytes, encodeUtf8_append hpaired newline_paired]
  rfl

theorem AuditEntry.bytes_ne_nil (e : AuditEntry) : e.bytes ≠ [] := by
  rw [e.bytes_eq]
  exact List.append_ne_nil_of_right_ne_nil _ (List.cons_ne_nil _ _)

theorem Holds.nil_iff {file : Option Bytes} {es : List AuditEntry} (h : Holds file es) :
    file.getD [] = [] ↔ es = [] := by
  rw [h]
  constructor
  · intro hnil
    cases es with
    | nil => rfl
    | cons e es =>
      rw [List.flatMap_cons] at hnil
      exact absurd (List.append_eq_nil_iff.mp hnil).1 e.bytes_ne_nil
  · rintro rfl
    rfl

/-! ### Chains -/

/-- An entry that extends a log whose last entry has `prevHmac` and `prevSeq`. -/
structure Follows (rt : Runtime) (key : Bytes) (prevHmac : JsString) (prevSeq : ℕ)
    (e : AuditEntry) : Prop where
  payload : e.payload.isJson = true
  seq : e.seq = .ofNat (prevSeq+1)
  hmac : ∃ text, canonicalJson (.obj e.toEntryMinus.fields) = .ok text ∧
    e.hmac = rt.hmacSha256 key (prevHmac ++ text)

/-- Entries of which each extends the log before it. -/
def Chained (rt : Runtime) (key : Bytes) : JsString → ℕ → List AuditEntry → Prop
  | _, _, [] => True
  | prevHmac, prevSeq, e :: es =>
    Follows rt key prevHmac prevSeq e ∧ Chained rt key e.hmac (prevSeq+1) es

/-- The `hmac` that the next entry is chained to. -/
def lastHmac (prevHmac : JsString) (es : List AuditEntry) : JsString :=
  (es.getLast?.map AuditEntry.hmac).getD prevHmac

theorem lastHmac_cons (prevHmac : JsString) (e : AuditEntry) (es : List AuditEntry) :
    lastHmac prevHmac (e :: es) = lastHmac e.hmac es := by
  cases es with
  | nil => rfl
  | cons d es =>
    simp only [lastHmac, List.getLast?_cons, Option.map_some, Option.getD_some]

theorem lastHmac_snoc (prevHmac : JsString) (es : List AuditEntry) (e : AuditEntry) :
    lastHmac prevHmac (es ++ [e]) = e.hmac := by
  simp [lastHmac]

variable {rt : Runtime} {key : Bytes}

theorem chained_snoc {prevHmac : JsString} {prevSeq : ℕ} {es : List AuditEntry} {e : AuditEntry} :
    Chained rt key prevHmac prevSeq (es ++ [e]) ↔ Chained rt key prevHmac prevSeq es ∧
      Follows rt key (lastHmac prevHmac es) (prevSeq+es.length) e := by
  induction es generalizing prevHmac prevSeq with
  | nil => simp [Chained, lastHmac]
  | cons d es ih =>
    rw [List.cons_append, lastHmac_cons, List.length_cons]
    simp only [Chained, ih]
    rw [show prevSeq+1+es.length = prevSeq+(es.length+1) by omega, and_assoc]

/-- The `hmac` of the entry before the `i`th. -/
def hmacBefore (es : List AuditEntry) (i : ℕ) : JsString := lastHmac genesisPrevHmac (es.take i)

theorem Chained.get {prevHmac : JsString} {prevSeq : ℕ} {es : List AuditEntry}
    (h : Chained rt key prevHmac prevSeq es) (i : ℕ) (hi : i < es.length) :
    Follows rt key (lastHmac prevHmac (es.take i)) (prevSeq+i) es[i] := by
  induction es generalizing prevHmac prevSeq i with
  | nil => exact absurd hi (Nat.not_lt_zero i)
  | cons e es ih =>
    cases i with
    | zero => exact h.1
    | succ i =>
      have hrest := ih h.2 i (Nat.lt_of_succ_lt_succ hi)
      rw [List.take_succ_cons, lastHmac_cons]
      rwa [show prevSeq+1+i = prevSeq+(i+1) by omega] at hrest

/-! ### The tail window -/

theorem bne_newline {t : JsString} (h : NoNewline t) : ∀ c ∈ t.reverse, (c != 0x0A) = true := by
  intro c hc
  rw [bne_iff_ne]
  rintro rfl
  exact h (List.mem_reverse.mp hc)

theorem lastLine_of_noNewline {t : JsString} (h : NoNewline t) : lastLine t = t := by
  have hall := @List.takeWhile_append_of_pos _ _ _ [] (bne_newline h)
  simp only [List.append_nil, List.takeWhile_nil] at hall
  rw [lastLine, hall, List.reverse_reverse]

theorem lastLine_append (u : JsString) {t : JsString} (h : NoNewline t) :
    lastLine (u ++ 0x0A :: t) = t := by
  rw [lastLine, List.reverse_append, List.reverse_cons, List.append_assoc,
    List.takeWhile_append_of_pos (bne_newline h)]
  simp

theorem readTail_self (file : Bytes) :
    readTail file file.length = file.drop (file.length-min tailChunkBytes file.length) := by
  simp only [readTail]
  apply List.take_of_length_le
  rw [List.length_drop]
  omega

theorem flatMap_bytes_getLast (es : List AuditEntry) (h : es ≠ []) :
    ∃ u, es.flatMap AuditEntry.bytes = u ++ [0x0A] := by
  obtain ⟨init, e, rfl⟩ := (List.eq_nil_or_concat es).resolve_left h
  refine ⟨init.flatMap AuditEntry.bytes ++ encodeUtf8 e.text, ?_⟩
  simp [AuditEntry.bytes_eq]

/-- Text that a window adds in front of the last line ends with a line break. -/
theorem decodeUtf8_window (es : List AuditEntry) (e : AuditEntry) (k : ℕ) :
    ∃ u, (u = [] ∨ ∃ u', u = u' ++ [0x0A]) ∧
      decodeUtf8 ((es.flatMap AuditEntry.bytes).drop k ++ e.bytes) = u ++ (e.text ++ [0x0A]) := by
  have hline : decodeUtf8 e.bytes = e.text ++ [0x0A] := decodeUtf8_encodeUtf8 e.line_paired
  by_cases hnil : (es.flatMap AuditEntry.bytes).drop k = []
  · exact ⟨[], Or.inl rfl, by rw [hnil, List.nil_append, List.nil_append, hline]⟩
  · have hes : es ≠ [] := by rintro rfl; exact hnil (by simp)
    obtain ⟨v, hv⟩ := flatMap_bytes_getLast es hes
    have hlen : k ≤ v.length := by
      by_contra hk
      apply hnil
      rw [hv]
      apply List.drop_eq_nil_of_le
      simp
      omega
    obtain ⟨out, hout⟩ := decodeScalars_newline .idle (v.drop k) (by decide)
    refine ⟨ofScalars out ++ [0x0A], Or.inr ⟨_, rfl⟩, ?_⟩
    rw [hv, List.drop_append_of_le_length hlen, List.append_assoc, List.singleton_append,
      decodeUtf8, hout e.bytes, ofScalars_append]
    change ofScalars out ++ (0x0A :: decodeUtf8 e.bytes) = _
    rw [hline]
    simp

/-- A last line that fits the window is recovered. -/
theorem recoverFrom_fits (rt : Runtime) (logPath : JsString) (es : List AuditEntry)
    (e : AuditEntry) (n : ℕ) (hp : e.payload.isJson = true) (hseq : e.seq = .ofNat n)
    (hfits : e.bytes.length ≤ tailChunkBytes) :
    let file := es.flatMap AuditEntry.bytes ++ e.bytes
    recoverFrom rt logPath (readTail file file.length) = .ok (e.hmac, e.seq) := by
  intro file
  have hlen : file.length = (es.flatMap AuditEntry.bytes).length+e.bytes.length :=
    List.length_append
  obtain ⟨u, hu, htext⟩ := decodeUtf8_window es e (file.length-min tailChunkBytes file.length)
  have hdrop : readTail file file.length = (es.flatMap AuditEntry.bytes).drop
      (file.length-min tailChunkBytes file.length) ++ e.bytes := by
    rw [readTail_self]
    exact List.drop_append_of_le_length (by omega)
  have hlast : lastLine (u ++ e.text) = e.text := by
    rcases hu with rfl | ⟨u', rfl⟩
    · exact lastLine_of_noNewline e.text_noNewline
    · rw [List.append_assoc, List.singleton_append]
      exact lastLine_append u' e.text_noNewline
  rw [hdrop]
  simp only [recoverFrom, htext]
  rw [← List.append_assoc, List.getLast?_concat, List.dropLast_concat, hlast,
    e.parse_text hp (by rw [hseq]; rfl)]
  simp only [↓reduceIte, JsValue.get?, e.getOwn_hmac, e.getOwn_seq, hseq, posZero_ofNat]

theorem ofScalars_replacement (j : ℕ) :
    ofScalars (List.replicate j replacement) = List.replicate j 0xFFFD := by
  induction j with
  | zero => rfl
  | succ j ih =>
    rw [List.replicate_succ, List.replicate_succ, ← ih]
    rfl

theorem ofScalars_cons_ne_nil (c : Char) (cs : List Char) : ofScalars (c :: cs) ≠ [] := by
  have hunits : utf16 c ≠ [] := by
    unfold utf16
    split_ifs <;> exact List.cons_ne_nil _ _
  simp [ofScalars, hunits]

/-- A last line that does not fit the window makes `recoverState` refuse the file. -/
theorem recoverFrom_exceeds (rt : Runtime) (logPath : JsString) (es : List AuditEntry)
    (e : AuditEntry) (hexceeds : tailChunkBytes < e.bytes.length) :
    let file := es.flatMap AuditEntry.bytes ++ e.bytes
    ∃ message, recoverFrom rt logPath (readTail file file.length) = .error ⟨none, message⟩ := by
  intro file
  have hlen : file.length = (es.flatMap AuditEntry.bytes).length+e.bytes.length :=
    List.length_append
  obtain ⟨k, hk⟩ : ∃ k, e.bytes.length = tailChunkBytes+k :=
    ⟨e.bytes.length-tailChunkBytes, by omega⟩
  have hdrop : readTail file file.length = e.bytes.drop k := by
    have hstart : file.length-min tailChunkBytes file.length =
        (es.flatMap AuditEntry.bytes).length+k := by omega
    rw [readTail_self, hstart, List.drop_append, List.drop_eq_nil_of_le (by omega),
      List.nil_append, Nat.add_sub_cancel_left]
  obtain ⟨j, pre, post, hcs, hpre, hdec⟩ := decodeScalars_drop (scalars (e.text ++ [0x0A])) k
    (by omega) (show k ≤ e.bytes.length by omega)
  have htext : decodeUtf8 (e.bytes.drop k) = ofScalars (List.replicate j replacement ++ post) :=
    congrArg ofScalars hdec
  have hline : e.text ++ [0x0A] = ofScalars pre ++ ofScalars post := by
    obtain ⟨cs, hp⟩ := e.line_paired
    rw [← ofScalars_append, ← hcs, hp, scalars_ofScalars]
  have hpre' : ofScalars pre ≠ [] := by
    cases pre with
    | nil => exact absurd rfl hpre
    | cons c pre => exact ofScalars_cons_ne_nil c pre
  rw [hdrop]
  simp only [recoverFrom, htext, ofScalars_append, ofScalars_replacement]
  rcases List.eq_nil_or_concat (ofScalars post) with hpost | ⟨q, x, hpost⟩
  · -- the window holds nothing but the end of one character
    have hlast : (List.replicate j (0xFFFD : CodeUnit)).getLast? ≠ some 0x0A := by
      rw [List.getLast?_replicate]
      split_ifs <;> decide
    rw [hpost, List.append_nil, if_neg hlast]
    exact ⟨_, rfl⟩
  · rw [List.concat_eq_append] at hpost
    rw [hpost, ← List.append_assoc] at hline
    obtain ⟨hcut, hx⟩ := List.append_inj' hline rfl
    obtain rfl : 0x0A = x := List.cons.inj hx |>.1
    have hno : NoNewline (List.replicate j 0xFFFD ++ q) := by
      refine NoNewline.append (fun hm => absurd (List.eq_of_mem_replicate hm) (by decide)) fun hm => ?_
      exact e.text_noNewline (by rw [hcut]; exact List.mem_append_right _ hm)
    have hparse : jsonParse (List.replicate j 0xFFFD ++ q) = none := by
      cases j with
      | zero => exact jsonParse_suffix hcut hpre'
      | succ j => exact jsonParse_replacement _
    rw [hpost, ← List.append_assoc, List.getLast?_concat, if_pos rfl, List.dropLast_concat,
      lastLine_of_noNewline hno, hparse]
    exact ⟨_, rfl⟩

end Homelab
