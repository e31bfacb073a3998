import Homelab.AuditLog

/-! `audit verify`: the walk over the log, and that it accepts a chained one. -/
namespace Homelab
open Js

inductive VerifyReason
  | hmacMismatch
  | seqGap
  | parseError
deriving DecidableEq

def VerifyReason.text : VerifyReason → JsString
  | .hmacMismatch => js "hmac_mismatch"
  | .seqGap => js "seq_gap"
  | .parseError => js "parse_error"

/-- The variables of the loop over the lines. -/
structure VerifyState where
  prevHmac : JsString
  prevSeq : JsNumber
  entriesVerified : ℕ
  firstSeq : Option JsNumber
  lastSeq : Option JsNumber
  failedAtSeq : Option JsNumber
  reason : Option VerifyReason

def VerifyState.fail (st : VerifyState) (reason : VerifyReason) (seq : JsNumber) : VerifyState :=
  { st with failedAtSeq := some seq, reason := some reason }

def VerifyState.initial : VerifyState := ⟨genesisPrevHmac, .ofNat 0, 0, none, none, none, none⟩

/-- The body of the loop; `error` is what it throws. -/
def verifyLine (rt : Runtime) (key : Bytes) (st : VerifyState) (line : JsString) :
    Except JsString VerifyState :=
  if line = [] then .ok st
  else
    match jsonParse line with
    | none => .ok (st.fail .parseError (st.prevSeq.add (.ofNat 1)))
    | some .null => .error (js "Cannot read properties of null (reading 'seq')")
    | some parsed =>
      match property (js "seq") parsed, property (js "hmac") parsed with
      | .num seq, .str hmac =>
        if seq.strictEq (st.prevSeq.add (.ofNat 1)) then do
          let minus := JsValue.obj
            [(js "actor", property (js "actor") parsed), (js "event", property (js "event") parsed),
              (js "payload", property (js "payload") parsed),
              (js "platform", property (js "platform") parsed), (js "seq", .num seq),
              (js "timestamp", property (js "timestamp") parsed)]
          let text ← canonicalJson minus
          if rt.hmacSha256 key (st.prevHmac ++ text) = hmac then
            .ok { st with
              prevHmac := hmac
              prevSeq := seq
              entriesVerified := st.entriesVerified+1
              firstSeq := some (st.firstSeq.getD seq)
              lastSeq := some seq }
          else .ok (st.fail .hmacMismatch seq)
        else .ok (st.fail .seqGap seq)
      | _, _ => .ok (st.fail .parseError (st.prevSeq.add (.ofNat 1)))

/-- The loop, which ends at the first failure. -/
def verifyLines (rt : Runtime) (key : Bytes) : VerifyState → List JsString →
    Except JsString VerifyState
  | st, [] => .ok st
  | st, line :: rest => do
    let st' ← verifyLine rt key st line
    if st'.failedAtSeq.isSome then .ok st' else verifyLines rt key st' rest

def nullableNumber : Option JsNumber → JsValue
  | none => .null
  | some x => .num x

/-- What `audit verify` prints for a log without a failure. -/
def acceptedReport (json : Bool) (entriesVerified : ℕ) (firstSeq lastSeq : Option JsNumber) :
    CommandResult :=
  if json then
    ⟨exitOk, printJson (.obj [(js "ok", .bool true),
      (js "entries_verified", .num (.ofNat entriesVerified)),
      (js "first_seq", nullableNumber firstSeq), (js "last_seq", nullableNumber lastSeq)]), []⟩
  else
    ⟨exitOk, js "audit log: " ++ (JsNumber.ofNat entriesVerified).toText ++
      js " entries verified, chain intact\n", []⟩

def failWithError (e : ErrnoException) (json : Bool) : CommandResult :=
  if json then
    ⟨exitUsage, printJson (.obj [(js "ok", .bool false), (js "error", .str e.message),
      (js "code", .str (js "IO_ERROR"))]), []⟩
  else ⟨exitUsage, [], printError e.message⟩

def VerifyState.report (st : VerifyState) (json : Bool) : CommandResult :=
  match st.failedAtSeq with
  | none => acceptedReport json st.entriesVerified st.firstSeq st.lastSeq
  | some seq =>
    if json then
      ⟨exitUsage, printJson (.obj [(js "ok", .bool false),
        (js "entries_verified", .num (.ofNat st.entriesVerified)),
        (js "failed_at_seq", .num seq),
        (js "reason", nullable (st.reason.map VerifyReason.text))]), []⟩
    else
      ⟨exitUsage, [], printError (js "audit log verification failed at seq " ++ seq.toText ++
        js ": " ++ (st.reason.map VerifyReason.text).getD (js "unknown"))⟩

/-- `runAuditVerify`, given what `readFile` and `getKey` answer; `error` is what it throws. -/
def runAuditVerify (rt : Runtime) (json : Bool) (readFile : Except ErrnoException Bytes)
    (getKey : Except JsString Bytes) : Except JsString CommandResult :=
  match readFile with
  | .error e =>
    if e.code = some (js "ENOENT") then .ok (acceptedReport json 0 none none)
    else .ok (failWithError e json)
  | .ok bytes => do
    let key ← getKey
    let raw := decodeUtf8 bytes
    let text := if raw.getLast? = some 0x0A then raw.dropLast else raw
    if text = [] then .ok (acceptedReport json 0 none none)
    else
      let st ← verifyLines rt key .initial (text.splitOn 0x0A)
      .ok (st.report json)

/-- `fs.readFile` on a log file that may be missing. -/
def readLog (file : Option Bytes) (enoent : JsString) : Except ErrnoException Bytes :=
  match file with
  | none => .error ⟨some (js "ENOENT"), enoent⟩
  | some bytes => .ok bytes

/-! ### A chained log is accepted -/

variable {rt : Runtime} {key : Bytes}

/-- The loop's state after `n` accepted entries. -/
def VerifyState.accepted (prevHmac : JsString) (n : ℕ) : VerifyState :=
  ⟨prevHmac, .ofNat n, n, if n = 0 then none else some (.ofNat 1),
    if n = 0 then none else some (.ofNat n), none, none⟩

theorem AuditEntry.text_ne_nil (e : AuditEntry) : e.text ≠ [] := List.cons_ne_nil _ _

theorem AuditEntry.property_posZero (e : AuditEntry) (k : JsString) :
    property k (.obj (posZeroFields e.fields)) = (getOwn k e.fields).posZero := by
  simp only [property, JsValue.get?, Option.getD_some, getOwn_posZeroFields]

/-- The verifier signs the canonical text that the writer has signed. -/
theorem canonicalJson_minus {e : AuditEntry} {n : ℕ} (hseq : e.seq = .ofNat n) :
    canonicalJson (.obj
      [(js "actor", property (js "actor") (.obj (posZeroFields e.fields))),
        (js "event", property (js "event") (.obj (posZeroFields e.fields))),
        (js "payload", property (js "payload") (.obj (posZeroFields e.fields))),
        (js "platform", property (js "platform") (.obj (posZeroFields e.fields))),
        (js "seq", .num (.ofNat n)),
        (js "timestamp", property (js "timestamp") (.obj (posZeroFields e.fields)))]) =
      canonicalJson (.obj e.toEntryMinus.fields) := by
  have hposZero := encode_posZero (.obj e.toEntryMinus.fields)
  rw [canonicalJson, canonicalJson, ← hposZero]
  simp only [e.property_posZero]
  congr 1
  change JsValue.obj _ = JsValue.obj [_, _, _, _, (js "seq", (JsValue.num e.seq).posZero), _]
  rw [hseq, posZero_ofNat]
  rfl

theorem verifyLine_follows {prevHmac : JsString} {n : ℕ} {e : AuditEntry}
    (h : Follows rt key prevHmac n e) :
    verifyLine rt key (.accepted prevHmac n) e.text = .ok (.accepted e.hmac (n+1)) := by
  obtain ⟨text, htext, hhmac⟩ := h.hmac
  have hparse := e.parse_text h.payload (by rw [h.seq]; rfl)
  have hseq : property (js "seq") (.obj (posZeroFields e.fields)) = .num (.ofNat (n+1)) := by
    rw [e.property_posZero]
    change (JsValue.num e.seq).posZero = _
    rw [h.seq, posZero_ofNat]
  have hmac : property (js "hmac") (.obj (posZeroFields e.fields)) = .str e.hmac :=
    e.property_posZero _
  have hcanon := canonicalJson_minus h.seq
  have hnext : (VerifyState.accepted prevHmac n).prevSeq.add (.ofNat 1) = .ofNat (n+1) :=
    JsNumber.ofNat_add n 1
  have hfirst : (VerifyState.accepted prevHmac n).firstSeq.getD (.ofNat (n+1)) = .ofNat 1 := by
    cases n <;> rfl
  rw [verifyLine, if_neg e.text_ne_nil, hparse]
  simp only [hseq, hmac, hnext, JsNumber.strictEq_ofNat_self, ↓reduceIte, hcanon, htext, hfirst]
  change (if rt.hmacSha256 key (prevHmac ++ text) = e.hmac then _ else _) = _
  rw [if_pos hhmac.symm]
  simp only [VerifyState.accepted, Nat.add_eq_zero_iff, one_ne_zero, and_false, ↓reduceIte]

theorem verifyLines_chained {prevHmac : JsString} {n : ℕ} {es : List AuditEntry}
    (h : Chained rt key prevHmac n es) :
    verifyLines rt key (.accepted prevHmac n) (es.map AuditEntry.text) =
      .ok (.accepted (lastHmac prevHmac es) (n+es.length)) := by
  induction es generalizing prevHmac n with
  | nil => rfl
  | cons e es ih =>
    simp only [List.map_cons, verifyLines, verifyLine_follows h.1]
    rw [lastHmac_cons, List.length_cons, show n+(es.length+1) = n+1+es.length by omega]
    exact ih h.2

/-- What a reader of the log file decodes. -/
theorem decodeUtf8_log (es : List AuditEntry) :
    decodeUtf8 (es.flatMap AuditEntry.bytes) = es.flatMap fun e => e.text ++ [0x0A] := by
  have hlog : Paired (es.flatMap fun e => e.text ++ [0x0A]) ∧
      es.flatMap AuditEntry.bytes = encodeUtf8 (es.flatMap fun e => e.text ++ [0x0A]) := by
    induction es with
    | nil => exact ⟨.nil, rfl⟩
    | cons e es ih =>
      rw [List.flatMap_cons, List.flatMap_cons, encodeUtf8_append e.line_paired ih.1, ih.2]
      exact ⟨e.line_paired.append ih.1, rfl⟩
  rw [hlog.2, decodeUtf8_encodeUtf8 hlog.1]

theorem flatMap_lines (e : AuditEntry) (es : List AuditEntry) :
    ((e :: es).flatMap fun e => e.text ++ [0x0A]) =
      [0x0A].intercalate ((e :: es).map AuditEntry.text) ++ [0x0A] := by
  induction es generalizing e with
  | nil => simp
  | cons d es ih =>
    rw [List.flatMap_cons, ih d, List.map_cons, List.map_cons, List.map_cons,
      List.intercalate_cons_cons]
    simp

/-- The report on a log of `n` entries that is accepted. -/
def acceptedLog (json : Bool) (n : ℕ) : CommandResult :=
  (VerifyState.accepted [] n).report json

/-- `audit verify` accepts every chained log and counts its entries. -/
theorem runAuditVerify_chained (json : Bool) (enoent : JsString) {file : Option Bytes}
    {es : List AuditEntry} (hfile : Holds file es) (h : Chained rt key genesisPrevHmac 0 es) :
    runAuditVerify rt json (readLog file enoent) (.ok key) = .ok (acceptedLog json es.length) := by
  cases es with
  | nil =>
    cases file with
    | none => rfl
    | some bytes =>
      obtain rfl : bytes = [] := hfile
      rfl
  | cons e es =>
    obtain ⟨bytes, rfl⟩ : ∃ bytes, file = some bytes := by
      cases file with
      | none => exact absurd (hfile.nil_iff.mp rfl) (List.cons_ne_nil _ _)
      | some bytes => exact ⟨bytes, rfl⟩
    obtain rfl : bytes = (e :: es).flatMap AuditEntry.bytes := hfile
    have hlines := verifyLines_chained h
    have hno : ∀ l ∈ (e :: es).map AuditEntry.text, (0x0A : CodeUnit) ∉ l := by
      intro l hl
      obtain ⟨d, _, rfl⟩ := List.mem_map.mp hl
      exact d.text_noNewline
    have hsplit := List.splitOn_intercalate (0x0A : CodeUnit) hno (List.cons_ne_nil _ _)
    have htext : [0x0A].intercalate ((e :: es).map AuditEntry.text) ≠ [] := by
      intro hnil
      rw [hnil] at hsplit
      exact e.text_ne_nil (List.cons.inj hsplit).1.symm
    simp only [readLog, runAuditVerify, decodeUtf8_log, flatMap_lines,
      List.getLast?_concat, List.dropLast_concat, ↓reduceIte]
    change (if _ then _ else _) = _
    rw [if_neg htext, hsplit]
    change (verifyLines rt key (.accepted genesisPrevHmac 0) _ >>= _) = _
    rw [hlines, Nat.zero_add]
    rfl

end Homelab
