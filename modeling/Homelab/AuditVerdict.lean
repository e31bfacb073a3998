import Homelab.AuditSound
import Homelab.CanonicalForm
import Homelab.JsonParse

/-! When `audit verify` comes to a verdict about a log, whatever bytes are in it. Number
literals are read by a parameter, since one that is beyond the doubles is read as infinite. -/
namespace Homelab
open Js

/-! ### The values that the canonical encoder takes -/

mutual
/-- The encoder throws at a value that has no JSON text, and nowhere else. -/
theorem encode_iff_hasText : ∀ v : JsValue, (∃ t, encode v = .ok t) ↔ v.hasText = true
  | .null => iff_of_true ⟨_, rfl⟩ rfl
  | .bool true => iff_of_true ⟨_, rfl⟩ rfl
  | .bool false => iff_of_true ⟨_, rfl⟩ rfl
  | .num (.fin _) => iff_of_true ⟨_, rfl⟩ rfl
  | .num .nan => iff_of_false nofun nofun
  | .num (.inf _) => iff_of_false nofun nofun
  | .str _ => iff_of_true ⟨_, rfl⟩ rfl
  | .undefined => iff_of_false nofun nofun
  | .bigint _ => iff_of_false nofun nofun
  | .function => iff_of_false nofun nofun
  | .symbol => iff_of_false nofun nofun
  | .arr es => by
    rw [JsValue.hasText, ← encode_iff_allHaveText es]
    constructor
    · rintro ⟨t, ht⟩ v hv
      obtain ⟨parts, hparts, -⟩ := encode_arr_iff.mp ht
      have hmem : encode v ∈ parts.map .ok := hparts ▸ List.mem_map_of_mem hv
      obtain ⟨part, -, hpart⟩ := List.mem_map.mp hmem
      exact ⟨part, hpart.symm⟩
    · intro h
      choose! text htext using h
      refine ⟨_, encode_arr_iff.mpr ⟨es.map text, ?_, rfl⟩⟩
      rw [List.map_map]
      exact List.map_congr_left htext
  | .obj fs => by
    rw [JsValue.hasText, ← encode_iff_fieldsHaveText fs]
    exact encode_obj_ok

theorem encode_iff_allHaveText : ∀ es : List JsValue,
    (∀ v ∈ es, ∃ t, encode v = .ok t) ↔ allHaveText es = true
  | [] => iff_of_true nofun rfl
  | v :: es => by
    rw [List.forall_mem_cons, encode_iff_hasText v, encode_iff_allHaveText es, allHaveText, Bool.and_eq_true]

theorem encode_iff_fieldsHaveText : ∀ fs : Fields,
    (∀ f ∈ fs, ∃ t, encode f.2 = .ok t) ↔ fieldsHaveText fs = true
  | [] => iff_of_true nofun rfl
  | (k, v) :: fs => by
    rw [List.forall_mem_cons, encode_iff_hasText v, encode_iff_fieldsHaveText fs, fieldsHaveText,
      Bool.and_eq_true]
end

/-! ### The walk with its number literals -/

/-- The body of the loop after `JSON.parse`; `error` is what it throws. -/
def verifyParsed (rt : Runtime) (key : Bytes) (st : VerifyState) :
    Option JsValue → Except JsString VerifyState
  | none => .ok (st.fail .parseError (st.prevSeq.add (.ofNat 1)))
  | some .null => .error (js "Cannot read properties of null (reading 'seq')")
  | some parsed =>
    match property (js "seq") parsed, property (js "hmac") parsed with
    | .num seq, .str hmac =>
      if seq.strictEq (st.prevSeq.add (.ofNat 1)) then do
        let text ← canonicalJson (.obj (lineMinus parsed seq))
        if rt.hmacSha256 key (st.prevHmac ++ text) = hmac then
          .ok { st with
            prevHmac := hmac
            prevSeq := seq
            entriesVerified := st.entriesVerified+1
            firstSeq := some (st.firstSeq.getD seq)
            lastSeq := some seq }
        else .ok (st.fail .hmacMismatch seq)
      else .ok (st.fail .seqGap seq)
    | _, _ => .ok (st.fail .parseError (st.prevSeq.add (.ofNat 1)))

/-- The loop over the lines, which skips those that are empty. -/
def verifyWalk (rt : Runtime) (key : Bytes) (double : Decimal → JsNumber) :
    VerifyState → List JsString → Except JsString VerifyState
  | st, [] => .ok st
  | st, line :: rest =>
    if line = [] then verifyWalk rt key double st rest
    else do
      let st' ← verifyParsed rt key st (parseLine double line)
      if st'.failedAtSeq.isSome then .ok st' else verifyWalk rt key double st' rest

/-- `runAuditVerify` on a log file with these bytes. -/
def runAuditVerifyOn (rt : Runtime) (key : Bytes) (double : Decimal → JsNumber) (json : Bool)
    (bytes : Bytes) : Except JsString CommandResult :=
  if logText bytes = [] then .ok (acceptedReport json 0 none none)
  else (verifyWalk rt key double .initial ((logText bytes).splitOn 0x0A)).map (·.report json)

mutual
theorem readNumbers_fin : ∀ v : JsValue, readNumbers .fin v = v
  | .num (.fin _) => rfl
  | .num .nan => rfl
  | .num (.inf _) => rfl
  | .arr es => by rw [readNumbers, readNumbersAll_fin es]
  | .obj fs => by rw [readNumbers, readNumbersFields_fin fs]
  | .undefined => rfl
  | .null => rfl
  | .bool _ => rfl
  | .str _ => rfl
  | .bigint _ => rfl
  | .function => rfl
  | .symbol => rfl

theorem readNumbersAll_fin : ∀ es : List JsValue, readNumbersAll .fin es = es
  | [] => rfl
  | v :: es => by rw [readNumbersAll, readNumbers_fin v, readNumbersAll_fin es]

theorem readNumbersFields_fin : ∀ fs : Fields, readNumbersFields .fin fs = fs
  | [] => rfl
  | (k, v) :: fs => by rw [readNumbersFields, readNumbers_fin v, readNumbersFields_fin fs]
end

theorem verifyLine_eq (rt : Runtime) (key : Bytes) (st : VerifyState) {line : JsString} (hne : line ≠ []) :
    verifyLine rt key st line = verifyParsed rt key st (parseLine .fin line) := by
  have hparse : parseLine .fin line = jsonParse line := by
    rw [parseLine, funext readNumbers_fin]
    exact congrFun Option.map_id _
  rw [verifyLine, if_neg hne, hparse]
  rfl

/-- The verifier of exact numbers is the one whose literals are all finite. -/
theorem verifyWalk_fin (rt : Runtime) (key : Bytes) (st : VerifyState) (lines : List JsString)
    (hst : st.failedAtSeq = none) : verifyWalk rt key .fin st lines = verifyLines rt key st lines := by
  induction lines generalizing st with
  | nil => rfl
  | cons line lines ih =>
    by_cases hempty : line = []
    · subst hempty
      rw [verifyWalk, if_pos rfl, verifyLines, verifyLine_nil, ih st hst]
      change _ = if st.failedAtSeq.isSome then _ else _
      rw [hst]
      rfl
    · rw [verifyWalk, if_neg hempty, verifyLines, verifyLine_eq rt key st hempty]
      cases verifyParsed rt key st (parseLine .fin line) with
      | error message => rfl
      | ok st' =>
        change (if _ then _ else _) = if _ then _ else _
        split_ifs with hfailed
        · rfl
        · exact ih st' (Option.not_isSome_iff_eq_none.mp hfailed)

theorem runAuditVerifyOn_fin (rt : Runtime) (key : Bytes) (json : Bool) (bytes : Bytes) :
    runAuditVerifyOn rt key .fin json bytes = runAuditVerify rt json (.ok bytes) (.ok key) := by
  have hcode : runAuditVerify rt json (.ok bytes) (.ok key) =
      if logText bytes = [] then .ok (acceptedReport json 0 none none)
      else (verifyLines rt key .initial ((logText bytes).splitOn 0x0A)).bind fun st =>
        .ok (st.report json) := rfl
  rw [runAuditVerifyOn, verifyWalk_fin _ _ _ _ rfl, hcode]
  cases verifyLines rt key .initial ((logText bytes).splitOn 0x0A) with
  | error message => rfl
  | ok st => rfl

/-! ### Verdicts -/

/-- Where the loop may end: the log is accepted, or there is a reason and a position. -/
inductive VerifyState.Concludes (st : VerifyState) : Prop
  | accepted (hposition : st.failedAtSeq = none) (hreason : st.reason = none)
  | failed (position : Decimal) (reason : VerifyReason) (hposition : st.failedAtSeq = some (.fin position))
      (hreason : st.reason = some reason)

/-- The fields besides `seq` that the HMAC of an entry covers -/
def signedKeys : List JsString :=
  [js "actor", js "event", js "payload", js "platform", js "timestamp"]

/-- The verifier can judge a parsed line after `prevSeq`: it is not `null`, and where it passes for an
entry, its number is finite and, if the number is the next one, all that is signed has a text. -/
structure CanJudge (prevSeq : JsNumber) (parsed : JsValue) : Prop where
  object : parsed ≠ .null
  entry : ∀ seq hmac, property (js "seq") parsed = .num seq → property (js "hmac") parsed = .str hmac →
    seq.isFinite = true ∧ (seq.strictEq (prevSeq.add (.ofNat 1)) = true →
      ∀ k ∈ signedKeys, (property k parsed).hasText = true)

/-- A parsed line is the entry after the one with `prevHmac` and `prevSeq`. -/
structure IsEntry (rt : Runtime) (key : Bytes) (prevHmac : JsString) (prevSeq : JsNumber)
    (parsed : JsValue) (hmac : JsString) (seq : JsNumber) : Prop where
  number : property (js "seq") parsed = .num seq
  signature : property (js "hmac") parsed = .str hmac
  next : seq.strictEq (prevSeq.add (.ofNat 1)) = true
  digest : ∃ text, canonicalJson (.obj (lineMinus parsed seq)) = .ok text ∧
    rt.hmacSha256 key (prevHmac ++ text) = hmac

/-- Lines that are entries, one after the other; the last has `hmac` and `seq`. -/
inductive Entries (rt : Runtime) (key : Bytes) (double : Decimal → JsNumber) :
    JsString → JsNumber → List JsString → JsString → JsNumber → Prop
  | nil (hmac : JsString) (seq : JsNumber) : Entries rt key double hmac seq [] hmac seq
  | cons {prevHmac : JsString} {prevSeq : JsNumber} {line : JsString} {rest : List JsString}
      {parsed : JsValue} {hmac hmac' : JsString} {seq seq' : JsNumber}
      (hparse : parseLine double line = some parsed)
        (hentry : IsEntry rt key prevHmac prevSeq parsed hmac seq)
      (hrest : Entries rt key double hmac seq rest hmac' seq') :
      Entries rt key double prevHmac prevSeq (line :: rest) hmac' seq'

/-- Every line that comes after entries only can be judged. -/
def Judged (rt : Runtime) (key : Bytes) (double : Decimal → JsNumber) (prevHmac : JsString)
    (prevSeq : JsNumber) (lines : List JsString) : Prop :=
  ∀ before line after hmac seq, lines = before ++ line :: after →
    Entries rt key double prevHmac prevSeq before hmac seq →
      ∀ parsed, parseLine double line = some parsed → CanJudge seq parsed

/-- The loop goes on from this state. -/
structure VerifyState.Runs (st : VerifyState) : Prop where
  position : st.failedAtSeq = none
  reason : st.reason = none
  finite : st.prevSeq.isFinite = true

variable {rt : Runtime} {key : Bytes} {double : Decimal → JsNumber} {st : VerifyState}

theorem IsEntry.unique {prevHmac hmac hmac' : JsString} {prevSeq seq seq' : JsNumber} {parsed : JsValue}
    (h : IsEntry rt key prevHmac prevSeq parsed hmac seq)
    (h' : IsEntry rt key prevHmac prevSeq parsed hmac' seq') : hmac' = hmac ∧ seq' = seq :=
  ⟨JsValue.str.inj (h'.signature.symm.trans h.signature), JsValue.num.inj (h'.number.symm.trans h.number)⟩

theorem VerifyState.fail_concludes (reason : VerifyReason) {position : JsNumber} :
    (st.fail reason position).Concludes ↔ position.isFinite = true := by
  constructor
  · intro h
    cases h with
    | accepted hposition _ => cases hposition
    | failed d _ hposition _ =>
      obtain rfl : position = .fin d := Option.some.inj hposition
      rfl
  · intro h
    cases position with
    | fin d => exact .failed d reason rfl rfl
    | nan => cases h
    | inf neg => cases h

theorem VerifyState.Runs.next_finite (hst : st.Runs) : (st.prevSeq.add (.ofNat 1)).isFinite = true := by
  have hfinite := hst.finite
  cases hseq : st.prevSeq with
  | fin d => rfl
  | nan =>
    rw [hseq] at hfinite
    cases hfinite
  | inf neg =>
    rw [hseq] at hfinite
    cases hfinite

/-- The signed object has a text exactly when the signed fields have one. -/
theorem lineMinus_encodes {parsed : JsValue} {seq : JsNumber} (hseq : seq.isFinite = true) :
    (∃ text, canonicalJson (.obj (lineMinus parsed seq)) = .ok text) ↔
      ∀ k ∈ signedKeys, (property k parsed).hasText = true := by
  rw [canonicalJson, encode_iff_hasText, JsValue.hasText, fieldsHaveText_iff]
  have hnum : (JsValue.num seq).hasText = true := hseq
  simp [lineMinus, signedKeys, hnum]

/-- A line that can be judged is an entry, after which the loop goes on, or ends it with a verdict. -/
theorem verifyParsed_judged (rt : Runtime) (key : Bytes) {parsed : JsValue} (hst : st.Runs)
    (h : CanJudge st.prevSeq parsed) :
    ∃ st', verifyParsed rt key st (some parsed) = .ok st' ∧
      (st'.Runs ∧ IsEntry rt key st.prevHmac st.prevSeq parsed st'.prevHmac st'.prevSeq ∨
        st'.failedAtSeq.isSome = true ∧ st'.Concludes ∧
          ∀ hmac seq, ¬ IsEntry rt key st.prevHmac st.prevSeq parsed hmac seq) := by
  -- every way to end the loop sets a position, which is a number of a verdict when it is finite
  have hstop {reason : VerifyReason} {position : JsNumber} (hfinite : position.isFinite = true)
      (hno : ∀ hmac seq, ¬ IsEntry rt key st.prevHmac st.prevSeq parsed hmac seq) :
      ∃ st', Except.ok (ε := JsString) (st.fail reason position) = .ok st' ∧
      (st'.Runs ∧ IsEntry rt key st.prevHmac st.prevSeq parsed st'.prevHmac st'.prevSeq ∨
        st'.failedAtSeq.isSome = true ∧ st'.Concludes ∧
          ∀ hmac seq, ¬ IsEntry rt key st.prevHmac st.prevSeq parsed hmac seq) :=
    ⟨_, rfl, .inr ⟨rfl, (VerifyState.fail_concludes reason).mpr hfinite, hno⟩⟩
  rw [verifyParsed.eq_def]
  split
  · rename_i heq
    cases heq
  · rename_i heq
    exact absurd (Option.some.inj heq) h.object
  rename_i w _ hw
  obtain rfl := Option.some.inj hw
  split
  · rename_i seq hmac hseq hhmac
    obtain ⟨hfinite, hfields⟩ := h.entry seq hmac hseq hhmac
    split_ifs with hnext
    -- the number is the next one, so the line is encoded and its digest decides
    · obtain ⟨text, htext⟩ := (lineMinus_encodes hfinite).mpr (hfields hnext)
      rw [htext]
      change ∃ st', (if rt.hmacSha256 key (st.prevHmac ++ text) = hmac then Except.ok _ else Except.ok _) =
        Except.ok st' ∧ _
      split_ifs with hdigest
      · exact ⟨_, rfl, .inl ⟨⟨hst.position, hst.reason, hfinite⟩, hseq, hhmac, hnext, text, htext, hdigest⟩⟩
      · refine hstop hfinite fun hmac' seq' hentry => ?_
        obtain ⟨text', htext', hdigest'⟩ := hentry.digest
        obtain rfl := JsValue.num.inj (hseq.symm.trans hentry.number)
        obtain rfl := JsValue.str.inj (hhmac.symm.trans hentry.signature)
        obtain rfl := Except.ok.inj (htext.symm.trans htext')
        exact hdigest hdigest'
    · refine hstop hfinite fun hmac' seq' hentry => ?_
      obtain rfl := JsValue.num.inj (hseq.symm.trans hentry.number)
      exact hnext hentry.next
  -- a number or a signature is missing: the reason is given at the number that was awaited
  · rename_i hnot
    exact hstop hst.next_finite fun hmac seq hentry => hnot seq hmac hentry.number hentry.signature

/-- A line that cannot be judged ends the loop without a verdict. -/
theorem verifyParsed_unjudged {parsed : JsValue} {st' : VerifyState} (hst : st.Runs)
    (h : ¬ CanJudge st.prevSeq parsed) (hok : verifyParsed rt key st (some parsed) = .ok st') :
    st'.failedAtSeq.isSome = true ∧ ¬ st'.Concludes := by
  rw [verifyParsed.eq_def] at hok
  split at hok
  · rename_i heq
    cases heq
  · cases hok
  rename_i w hobject hw
  obtain rfl := Option.some.inj hw
  split at hok
  · rename_i seq hmac hseq hhmac
    have hentry : ¬ (seq.isFinite = true ∧ (seq.strictEq (st.prevSeq.add (.ofNat 1)) = true →
        ∀ k ∈ signedKeys, (property k parsed).hasText = true)) := by
      intro hboth
      refine h ⟨fun hnull => hobject hnull, fun seq' hmac' hseq' hhmac' => ?_⟩
      obtain rfl := JsValue.num.inj (hseq.symm.trans hseq')
      exact hboth
    split_ifs at hok with hnext
    · -- the next number is finite, so a signed field has no text and the encoder throws
      have hfinite : seq.isFinite = true := by
        have hsum := hst.next_finite
        cases seq with
        | fin d => rfl
        | nan => cases hnext
        | inf neg =>
          cases hadd : st.prevSeq.add (.ofNat 1) with
          | fin d =>
            rw [hadd] at hnext
            cases hnext
          | nan =>
            rw [hadd] at hsum
            cases hsum
          | inf neg =>
            rw [hadd] at hsum
            cases hsum
      cases htext : canonicalJson (.obj (lineMinus parsed seq)) with
      | error message =>
        rw [htext] at hok
        cases hok
      | ok text => exact absurd ⟨hfinite, fun _ => (lineMinus_encodes hfinite).mp ⟨text, htext⟩⟩ hentry
    · obtain rfl := Except.ok.inj hok
      exact ⟨rfl, fun hconcludes =>
        hentry ⟨(VerifyState.fail_concludes .seqGap).mp hconcludes, fun heq => absurd heq hnext⟩⟩
  -- without a number or a signature the line can be judged after all
  · rename_i hnot
    refine absurd ⟨fun hnull => hobject hnull, fun seq hmac hseq hhmac => ?_⟩ h
    exact absurd hhmac (hnot seq hmac hseq)

theorem judged_cons {prevHmac : JsString} {prevSeq : JsNumber} {line : JsString} {rest : List JsString} :
    Judged rt key double prevHmac prevSeq (line :: rest) ↔
      ∀ parsed, parseLine double line = some parsed → CanJudge prevSeq parsed ∧
        ∀ hmac seq, IsEntry rt key prevHmac prevSeq parsed hmac seq → Judged rt key double hmac seq rest := by
  constructor
  · intro h parsed hparse
    refine ⟨h [] line rest _ _ rfl (.nil _ _) parsed hparse, fun hmac seq hentry => ?_⟩
    intro before line' after hmac' seq' hsplit hentries
    exact h (line :: before) line' after hmac' seq' (by rw [hsplit, List.cons_append])
      (.cons hparse hentry hentries)
  · intro h before line' after hmac seq hsplit hentries parsed' hparse'
    cases hentries with
    | nil =>
      obtain ⟨rfl, -⟩ := List.cons.inj hsplit
      exact (h parsed' hparse').1
    | cons hparse hentry hrest =>
      obtain ⟨rfl, hrest'⟩ := List.cons.inj hsplit
      exact (h _ hparse).2 _ _ hentry _ _ after _ _ hrest' hrest parsed' hparse'

/-- The loop comes to a verdict exactly when every line it reaches can be judged. -/
theorem verifyWalk_concludes {lines : List JsString} (hne : ∀ line ∈ lines, line ≠ []) (hst : st.Runs) :
    (∃ st', verifyWalk rt key double st lines = .ok st' ∧ st'.Concludes) ↔
      Judged rt key double st.prevHmac st.prevSeq lines := by
  induction lines generalizing st with
  | nil =>
    refine iff_of_true ⟨st, rfl, .accepted hst.position hst.reason⟩ ?_
    intro before line after hmac seq hsplit
    cases before <;> cases hsplit
  | cons line rest ih =>
    obtain ⟨hline, hrest⟩ := List.forall_mem_cons.mp hne
    rw [judged_cons, verifyWalk, if_neg hline]
    cases hparse : parseLine double line with
    | none =>
      refine iff_of_true ⟨_, rfl, ?_⟩ nofun
      exact (VerifyState.fail_concludes .parseError).mpr hst.next_finite
    | some parsed =>
      -- induction on the lines: the state after an entry is the one from which the rest is judged
      by_cases hjudge : CanJudge st.prevSeq parsed
      · obtain ⟨st', hstep, ⟨hruns, hentry⟩ | ⟨hstop, hconcludes, hno⟩⟩ :=
          verifyParsed_judged rt key hst hjudge
        · have hwalk : (verifyParsed rt key st (some parsed) >>= fun st' =>
              if st'.failedAtSeq.isSome then .ok st' else verifyWalk rt key double st' rest) =
                verifyWalk rt key double st' rest := by
            rw [hstep]
            change (if st'.failedAtSeq.isSome then _ else _) = _
            rw [hruns.position]
            rfl
          rw [hwalk, ih hrest hruns]
          constructor
          · intro h w hw
            obtain rfl := Option.some.inj hw
            refine ⟨hjudge, fun hmac seq hentry' => ?_⟩
            -- what the line was an entry after decides what comes after it
            obtain ⟨rfl, rfl⟩ := hentry.unique hentry'
            exact h
          · intro h
            exact (h parsed rfl).2 _ _ hentry
        · refine iff_of_true ⟨st', ?_, hconcludes⟩ fun w hw => ?_
          · rw [hstep]
            exact if_pos hstop
          · obtain rfl := Option.some.inj hw
            exact ⟨hjudge, fun hmac seq hentry => absurd hentry (hno hmac seq)⟩
      · refine iff_of_false ?_ fun h => hjudge (h parsed rfl).1
        rintro ⟨st', hok, hconcludes⟩
        cases hstep : verifyParsed rt key st (some parsed) with
        | error message =>
          rw [hstep] at hok
          cases hok
        | ok st₁ =>
          obtain ⟨hstop, hno⟩ := verifyParsed_unjudged hst hjudge hstep
          have hwalk : Except.ok (ε := JsString) st₁ = .ok st' := by
            rw [← hok, hstep]
            exact (if_pos hstop).symm
          exact hno (Except.ok.inj hwalk ▸ hconcludes)

theorem verifyWalk_filter (lines : List JsString) :
    verifyWalk rt key double st (lines.filter (· ≠ [])) = verifyWalk rt key double st lines := by
  induction lines generalizing st with
  | nil => rfl
  | cons line rest ih =>
    by_cases hempty : line = []
    · rw [List.filter_cons_of_neg (by simpa using hempty), verifyWalk, if_pos hempty, ih]
    · rw [List.filter_cons_of_pos (by simpa using hempty), verifyWalk, verifyWalk, if_neg hempty,
        if_neg hempty]
      congr 1
      funext st'
      rw [ih]

theorem runAuditVerifyOn_eq (rt : Runtime) (key : Bytes) (double : Decimal → JsNumber) (json : Bool)
    (bytes : Bytes) : runAuditVerifyOn rt key double json bytes =
      (verifyWalk rt key double .initial (recordLines bytes)).map (·.report json) := by
  rw [runAuditVerifyOn, recordLines, verifyWalk_filter]
  split_ifs with hempty
  · rw [hempty]
    rfl
  · rfl

theorem VerifyState.initial_runs : VerifyState.initial.Runs := ⟨rfl, rfl, rfl⟩

/-- `audit verify` of a log, whatever its bytes are, reports success, or a failure with its reason and
position, if and only if every line after nothing but entries of the chain can be judged. -/
theorem auditVerify_concludes_iff (rt : Runtime) (key : Bytes) (double : Decimal → JsNumber) (json : Bool)
    (bytes : Bytes) :
    (∃ st, runAuditVerifyOn rt key double json bytes = .ok (st.report json) ∧
      verifyWalk rt key double .initial (recordLines bytes) = .ok st ∧ st.Concludes) ↔
      Judged rt key double genesisPrevHmac (.ofNat 0) (recordLines bytes) := by
  have hne : ∀ line ∈ recordLines bytes, line ≠ [] := by
    intro line hline
    simpa using (List.mem_filter.mp hline).2
  change _ ↔ Judged rt key double VerifyState.initial.prevHmac VerifyState.initial.prevSeq _
  rw [← verifyWalk_concludes hne VerifyState.initial_runs]
  apply exists_congr
  intro st
  refine and_iff_right_of_imp fun h => ?_
  rw [runAuditVerifyOn_eq, h.1]
  rfl

/-- A log whose only line is `null` makes the command throw. -/
theorem auditVerify_throws : ¬ ∀ (rt : Runtime) (key : Bytes) (double : Decimal → JsNumber) (json : Bool)
    (bytes : Bytes), ∃ st, runAuditVerifyOn rt key double json bytes = .ok (st.report json) ∧
      verifyWalk rt key double .initial (recordLines bytes) = .ok st ∧ st.Concludes := by
  intro h
  have hlines : recordLines (encodeUtf8 (js "null\n")) = [js "null"] := by decide
  obtain ⟨st, -, hwalk, -⟩ := h twoDigests [] .fin false (encodeUtf8 (js "null\n"))
  rw [hlines] at hwalk
  have hparse : parseLine .fin (js "null") = some .null := rfl
  rw [verifyWalk, if_neg (by decide), hparse] at hwalk
  cases hwalk

end Homelab
