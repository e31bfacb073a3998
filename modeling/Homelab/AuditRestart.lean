import Homelab.AuditChain

/-! What the appends of one writer leave in an absent log, and restarts: a new
writer on a log that earlier writers have produced. It goes on exactly when the last
line of the log fits the tail window. -/
namespace Homelab
open Js

variable {rt : Runtime} {w : AuditWriter}

/-- One await of an append that nothing disturbs. -/
def tick (rt : Runtime) (w : AuditWriter) (timestamp : JsString) (st : WriterState × AppendCall) :
    WriterState × AppendCall :=
  let next := st.2.advance rt w ⟨none, false⟩ (.ok timestamp) st.1
  (next.1, { st.2 with phase := next.2 })

/-- An append that nothing disturbs, on its own, until it settles. -/
def appendAlone (rt : Runtime) (w : AuditWriter) (timestamp : JsString) (s : WriterState)
    (a : AppendArgs) : WriterState × AppendCall :=
  (tick rt w timestamp)^[9] (s, ⟨a, .queued⟩)

theorem tick_settled (timestamp : JsString) (st : WriterState × AppendCall) (h : st.2.settled)
    (n : ℕ) : (tick rt w timestamp)^[n] st = st := by
  have hfix : tick rt w timestamp st = st := by
    obtain ⟨s, a, phase⟩ := st
    cases phase <;> first | rfl | exact h.elim
  exact Function.iterate_fixed hfix n

/-- An undisturbed append is one of the runs of its writer. -/
theorem tick_runs (rt : Runtime) (w : AuditWriter) (timestamp : JsString) (s0 : WriterState) (a : AppendArgs)
    (hp : a.payload.isJson = true) (n : ℕ) :
    (auditMutex rt w).Runs s0 (((tick rt w timestamp)^[n] (s0, ⟨a, .queued⟩)).1,
      [((tick rt w timestamp)^[n] (s0, ⟨a, .queued⟩)).2]) := by
  induction n with
  | zero =>
    have hq : (auditMutex rt w).queued ⟨a, .queued⟩ := ⟨rfl, hp⟩
    exact Relation.ReflTransGen.single (PromiseMutex.Step.call s0 [] _ hq)
  | succ n ih =>
    rw [Function.iterate_succ_apply']
    set st := (tick rt w timestamp)^[n] (s0, ⟨a, .queued⟩)
    have hresume : (auditMutex rt w).resume st.1 st.2 (tick rt w timestamp st).1
        (tick rt w timestamp st).2 := by
      refine ⟨⟨none, false⟩, .ok timestamp, ?_, rfl, rfl⟩
      unfold AppendCall.truthful
      cases st.2.phase <;> trivial
    by_cases hq : (auditMutex rt w).queued st.2
    · exact ih.tail (PromiseMutex.Step.enter st.1 _ [] [] st.2 _ hq
        (fun _ hb => absurd hb List.not_mem_nil) hresume)
    · by_cases hs : st.2.settled
      · rw [show tick rt w timestamp st = st from tick_settled timestamp st hs 1]
        exact ih
      · exact ih.tail (PromiseMutex.Step.resume st.1 _ [] [] st.2 _ hq hs hresume)

/-- Once the caches are warm nothing stops an undisturbed append. -/
theorem tick_prepared (rt : Runtime) (w : AuditWriter) {s : WriterState} {es : List AuditEntry}
    {a : AppendArgs}
    (timestamp : JsString) (hp : a.payload.isJson = true) (hwarm : Warm s es) :
    ∃ entry s', (tick rt w timestamp)^[4] (s, ⟨a, prepare w (.ok timestamp) s a⟩) =
      (s', ⟨a, .resolved entry⟩) ∧ s'.cachedPrevSeq = some (.ofNat (es.length+1)) := by
  have hseq : (s.cachedPrevSeq.getD (.ofNat 0)).add (.ofNat 1) = .ofNat (es.length+1) := by
    rw [hwarm.2]
    exact JsNumber.ofNat_add _ 1
  obtain ⟨entry, hsign, hminus, _⟩ := sign_isJson rt w
    { actor := a.actor.getD w.defaultActor, event := a.event, payload := a.payload
      platform := a.platform.getD none
      seq := (s.cachedPrevSeq.getD (.ofNat 0)).add (.ofNat 1), timestamp }
    (s.cachedPrevHmac.getD genesisPrevHmac) hp (by rw [hseq]; rfl)
  have hfirst : tick rt w timestamp (s, ⟨a, prepare w (.ok timestamp) s a⟩) =
      (s, ⟨a, .makingDir entry (entry.text ++ [0x0A])⟩) := by
    rw [← hsign]
    rfl
  refine ⟨entry, ((tick rt w timestamp)^[3] (s, ⟨a, .makingDir entry (entry.text ++ [0x0A])⟩)).1, ?_, ?_⟩
  · rw [Function.iterate_succ_apply, hfirst]
    rfl
  · change some entry.toEntryMinus.seq = _
    rw [hminus, ← hseq]

/-- An undisturbed append on a log without entries succeeds, and the caches name its entry. -/
theorem appendAlone_caches (rt : Runtime) (w : AuditWriter) {file : Option Bytes} {a : AppendArgs}
    (timestamp : JsString)
    (hp : a.payload.isJson = true) (hempty : file.getD [] = []) :
    ∃ entry s', appendAlone rt w timestamp (.fresh file) a = (s', ⟨a, .resolved entry⟩) ∧
      s'.cachedPrevSeq = some (.ofNat 1) := by
  set s' : WriterState := ⟨file, some genesisPrevHmac, some (.ofNat 0)⟩
  have hwarm : Warm s' [] := ⟨rfl, rfl⟩
  obtain ⟨entry, s'', h4, hseq⟩ := tick_prepared rt w timestamp hp hwarm
  have hstart : (tick rt w timestamp)^[2] (.fresh file, ⟨a, .queued⟩) =
      (s', ⟨a, prepare w (.ok timestamp) s' a⟩) := by
    cases file with
    | none => rfl
    | some bytes =>
      obtain rfl : bytes = [] := hempty
      rfl
  refine ⟨entry, s'', ?_, hseq⟩
  rw [appendAlone, show 9 = 3+4+2 from rfl, Function.iterate_add_apply, Function.iterate_add_apply,
    hstart, h4]
  exact tick_settled timestamp (_, ⟨a, .resolved entry⟩) trivial 3

theorem appendAlone_empty (rt : Runtime) (w : AuditWriter) {file : Option Bytes} {a : AppendArgs}
    (timestamp : JsString)
    (hp : a.payload.isJson = true) (hempty : file.getD [] = []) :
    ∃ entry s', appendAlone rt w timestamp (.fresh file) a = (s', ⟨a, .resolved entry⟩) := by
  obtain ⟨entry, s', halone, -⟩ := appendAlone_caches rt w timestamp hp hempty
  exact ⟨entry, s', halone⟩

/-- A writer, a key and the digest that HMAC-SHA256 gives for the first entry. -/
def sampleRuntime : Runtime where
  hmacSha256 _ _ := js "961d1f33b9fcf47d1c32f3c384dd2ec6a41ecdf61891d4ac0c32cb87018e4fcf"
  syntaxMessage _ := js "Unexpected end of JSON input"

def sampleWriter : AuditWriter := ⟨js "/data/audit.log", js "ada", List.replicate 32 0⟩

def sampleArgs (payload : Fields) : AppendArgs := ⟨.discoveryStarted, .obj payload, none, none⟩

theorem tick_stating {file : Bytes} {a : AppendArgs} (timestamp : JsString) (hne : file ≠ []) :
    (tick rt w timestamp)^[3] (.fresh (some file), ⟨a, .queued⟩) =
      (.fresh (some file), ⟨a, .reading file.length⟩) := by
  have hlen : ¬ file.length = 0 := fun h => hne (List.eq_nil_of_length_eq_zero h)
  have hstat : tick rt w timestamp (.fresh (some file), ⟨a, .stating⟩) =
      (.fresh (some file), ⟨a, .opening file.length⟩) := by
    simp only [tick, AppendCall.advance, WriterState.fresh, hlen, ↓reduceIte]
  rw [Function.iterate_succ_apply]
  change (tick rt w timestamp)^[2] (.fresh (some file), ⟨a, .stating⟩) = _
  rw [Function.iterate_succ_apply, hstat]
  rfl

/-- An undisturbed append on a log that can be recovered succeeds. -/
theorem appendAlone_recovered (rt : Runtime) (w : AuditWriter) {file : Bytes} {es : List AuditEntry}
    {a : AppendArgs} (timestamp : JsString) (hp : a.payload.isJson = true) (hne : file ≠ [])
    (hrec : recoverFrom rt w.logPath (readTail file file.length) =
      .ok (lastHmac genesisPrevHmac es, .ofNat es.length)) :
    ∃ entry s', appendAlone rt w timestamp (.fresh (some file)) a = (s', ⟨a, .resolved entry⟩) := by
  set s' : WriterState := ⟨some file, some (lastHmac genesisPrevHmac es), some (.ofNat es.length)⟩
  have hwarm : Warm s' es := ⟨rfl, rfl⟩
  obtain ⟨entry, s'', h4, -⟩ := tick_prepared rt w timestamp hp hwarm
  have hread : (tick rt w timestamp)^[2] (.fresh (some file), ⟨a, .reading file.length⟩) =
      (s', ⟨a, prepare w (.ok timestamp) s' a⟩) := by
    have hrec' : tick rt w timestamp (.fresh (some file), ⟨a, .reading file.length⟩) =
        (s', ⟨a, .closing none⟩) := by
      simp only [tick, AppendCall.advance, WriterState.fresh, Option.getD_some, hrec]
      rfl
    rw [Function.iterate_succ_apply, hrec']
    rfl
  refine ⟨entry, s'', ?_⟩
  rw [appendAlone, show 9 = 4+2+3 from rfl, Function.iterate_add_apply, Function.iterate_add_apply,
    tick_stating timestamp hne, hread, h4]

/-- A log that cannot be recovered rejects every append and stays as it is. -/
theorem appendAlone_refused {file : Bytes} {a : AppendArgs} {message : JsString}
    (timestamp : JsString) (hne : file ≠ [])
    (hrec : recoverFrom rt w.logPath (readTail file file.length) = .error ⟨none, message⟩) :
    appendAlone rt w timestamp (.fresh (some file)) a =
      (.fresh (some file), ⟨a, recoverFailed w ⟨none, message⟩⟩) := by
  have hread : (tick rt w timestamp)^[2] (.fresh (some file), ⟨a, .reading file.length⟩) =
      (.fresh (some file), ⟨a, recoverFailed w ⟨none, message⟩⟩) := by
    have hrec' : tick rt w timestamp (.fresh (some file), ⟨a, .reading file.length⟩) =
        (.fresh (some file), ⟨a, .closing (some ⟨none, message⟩)⟩) := by
      simp only [tick, AppendCall.advance, WriterState.fresh, Option.getD_some, hrec]
    rw [Function.iterate_succ_apply, hrec']
    rfl
  rw [appendAlone, show 9 = 4+2+3 from rfl, Function.iterate_add_apply, Function.iterate_add_apply,
    tick_stating timestamp hne, hread]
  exact tick_settled timestamp (_, ⟨a, recoverFailed w ⟨none, message⟩⟩) trivial 4

/-- A log that sessions of writers with one key have produced, with its entries. A
session may end at any await. -/
inductive Produced (rt : Runtime) (w : AuditWriter) : Option Bytes → List AuditEntry → Prop
  | absent : Produced rt w none []
  | session {file : Option Bytes} {es : List AuditEntry} {s : WriterState} {calls : List AppendCall}
      (h : Produced rt w file es) (hrun : (auditMutex rt w).Runs (.fresh file) (s, calls)) :
      Produced rt w s.file (es ++ entriesOf calls)

theorem Produced.chainedLog {file : Option Bytes} {es : List AuditEntry} (h : Produced rt w file es) :
    ChainedLog rt w (.fresh file) es := by
  induction h with
  | absent => exact ⟨rfl, trivial⟩
  | session h hrun ih =>
    obtain ⟨hlog, _⟩ := runs_chained ih ⟨rfl, rfl⟩ hrun
    exact ⟨hlog.holds, hlog.chained⟩

/-- A new writer recovers the last entry, its next append succeeds, and `audit verify`
accepts the file with one more entry. -/
structure Restarts (rt : Runtime) (w : AuditWriter) (file : Option Bytes) (init : List AuditEntry)
    (last : AuditEntry) (a : AppendArgs) (timestamp : JsString) : Prop where
  recovers : recoverFrom rt w.logPath (readTail (file.getD []) (file.getD []).length) =
    .ok (last.hmac, last.seq)
  resolves : ∃ entry, (appendAlone rt w timestamp (.fresh file) a).2.phase = .resolved entry
  accepts : ∀ json enoent, runAuditVerify rt json
    (readLog (appendAlone rt w timestamp (.fresh file) a).1.file enoent) (.ok w.key) =
      .ok (acceptedLog json (init.length+2))

/-- A new writer goes on with a produced log exactly when the last line, with its
line break, fits the tail window. -/
theorem restarts_iff (rt : Runtime) (w : AuditWriter) (file : Option Bytes)
    (init : List AuditEntry) (last : AuditEntry) (a : AppendArgs) (timestamp : JsString)
    (h : Produced rt w file (init ++ [last])) (hp : a.payload.isJson = true) :
    Restarts rt w file init last a timestamp ↔ last.bytes.length ≤ tailChunkBytes := by
  have hlog := h.chainedLog
  have hlast := (chained_snoc.mp hlog.chained).2
  rw [Nat.zero_add] at hlast
  obtain ⟨bytes, rfl⟩ : ∃ bytes, file = some bytes := by
    cases file with
    | none => exact absurd (hlog.holds.nil_iff.mp rfl) (by simp)
    | some bytes => exact ⟨bytes, rfl⟩
  have hne : bytes ≠ [] := fun hnil => absurd (hlog.holds.nil_iff.mp hnil) (by simp)
  have hbytes : bytes = init.flatMap AuditEntry.bytes ++ last.bytes := by
    have hholds : bytes = _ := hlog.holds
    rwa [List.flatMap_append, List.flatMap_singleton] at hholds
  constructor
  · intro hrestart
    by_contra hlong
    obtain ⟨message, herr⟩ := recoverFrom_exceeds rt w.logPath init last (by omega)
    have hok := hrestart.recovers
    rw [Option.getD_some, hbytes, herr] at hok
    cases hok
  · intro hfits
    have hrec := recoverFrom_fits rt w.logPath init last _ hlast.payload hlast.seq hfits
    rw [← hbytes] at hrec
    have hrec' : recoverFrom rt w.logPath (readTail bytes bytes.length) =
        .ok (lastHmac genesisPrevHmac (init ++ [last]), .ofNat (init ++ [last]).length) := by
      rw [hrec, lastHmac_snoc, hlast.seq, List.length_append]
      rfl
    obtain ⟨entry, s', halone⟩ := appendAlone_recovered rt w timestamp hp hne hrec'
    have hrun := tick_runs rt w timestamp (.fresh (some bytes)) a hp 9
    rw [show (tick rt w timestamp)^[9] _ = (s', _) from halone] at hrun
    obtain ⟨hlog', _⟩ := runs_chained hlog ⟨rfl, rfl⟩ hrun
    refine ⟨hrec, ⟨entry, by rw [halone]⟩, fun json enoent => ?_⟩
    rw [halone, runAuditVerify_chained json enoent hlog'.holds hlog'.chained]
    simp [entriesOf, AppendCall.written?]

/-- The log of one undisturbed append. -/
theorem produced_one (rt : Runtime) (w : AuditWriter) (a : AppendArgs) (timestamp : JsString)
    (hp : a.payload.isJson = true) :
    ∃ file entry, Produced rt w file [entry] ∧ Records w a entry.toEntryMinus := by
  obtain ⟨entry, s', halone⟩ := @appendAlone_empty rt w none a timestamp hp rfl
  have hrun := tick_runs rt w timestamp (.fresh none) a hp 9
  rw [show (tick rt w timestamp)^[9] _ = (s', _) from halone] at hrun
  have hempty : ChainedLog rt w (.fresh none) [] := ⟨rfl, trivial⟩
  obtain ⟨_, hrec⟩ := runs_chained hempty ⟨rfl, rfl⟩ hrun
  exact ⟨s'.file, entry, .session .absent hrun, hrec _ (List.mem_cons_self ..) entry rfl⟩

theorem restarts_iff_one : ∃ file last, Produced sampleRuntime sampleWriter file ([] ++ [last]) ∧
    (Restarts sampleRuntime sampleWriter file [] last (sampleArgs []) (js "2026-01-01T00:00:01.000Z") ↔
      last.bytes.length ≤ tailChunkBytes) := by
  obtain ⟨file, last, hproduced, _⟩ := produced_one sampleRuntime sampleWriter (sampleArgs [])
    (js "2026-01-01T00:00:00.000Z") rfl
  exact ⟨file, last, hproduced, restarts_iff _ _ file [] last _ _ hproduced rfl⟩

/-- A line is at least as long as a text in its payload. -/
theorem length_le_bytes {e : AuditEntry} {k text : JsString}
    (h : e.payload = .obj [(k, .str text)]) : text.length < e.bytes.length := by
  have hstr := length_le_jsonText_str text
  have hpayload := length_le_jsonText_obj (k := k) (List.mem_singleton.mpr rfl)
    (show (JsValue.str text).isOmitted = false from rfl)
  have hentry : (jsonText e.payload).length ≤ e.text.length := by
    apply length_le_jsonText_obj (k := js "payload")
    · simp [AuditEntry.fields, EntryMinus.fields]
    · rw [h]
      rfl
  have hbytes := length_le_encodeUtf8 e.line_paired
  rw [h] at hentry
  rw [List.length_append, List.length_singleton] at hbytes
  change _ < (encodeUtf8 (e.text ++ [0x0A])).length
  omega

/-- One append with a note of 5000 letters leaves a log on which no new writer goes on. -/
theorem restarts_fails : ¬ ∀ (rt : Runtime) (w : AuditWriter) (file : Option Bytes)
    (init : List AuditEntry) (last : AuditEntry) (a : AppendArgs) (timestamp : JsString),
    Produced rt w file (init ++ [last]) → a.payload.isJson = true →
      Restarts rt w file init last a timestamp := by
  intro h
  obtain ⟨file, last, hproduced, hrec⟩ := produced_one sampleRuntime sampleWriter
    (sampleArgs [(js "note", .str (List.replicate 5000 0x61))]) (js "2026-01-01T00:00:00.000Z")
    (by decide)
  have hchained := hproduced.chainedLog
  have hlong := length_le_bytes hrec.payload
  rw [List.length_replicate] at hlong
  have hrestart := h sampleRuntime sampleWriter file [] last (sampleArgs []) [] hproduced rfl
  obtain ⟨message, herr⟩ := recoverFrom_exceeds sampleRuntime sampleWriter.logPath [] last
    (show 4096 < _ by omega)
  have hok := hrestart.recovers
  rw [show file.getD [] = _ from hchained.holds] at hok
  simp only [List.flatMap_singleton, List.flatMap_nil, List.nil_append] at hok herr
  rw [herr] at hok
  cases hok

end Homelab
