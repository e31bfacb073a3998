import Homelab.AuditRestart
import Homelab.AuditSound

/-! Appends of one `AuditWriter` whose file writes may fail in the middle of a line. The writer goes
on from the entry it has in its caches, so what counts is that no line follows a torn one. -/
namespace Homelab
open Js

/-! ### Torn writes -/

/-- `advance`, where an `appendFile` that fails has written `torn`. -/
def AppendCall.advanceTorn (rt : Runtime) (w : AuditWriter) (answer : Answer) (torn : Bytes)
    (now : Except JsString JsString) (s : WriterState) (c : AppendCall) : WriterState × AppendPhase :=
  match c.phase, answer.fault with
  | .appending _ _, some e =>
    ({ s with file :=
        if answer.created = true ∨ torn ≠ [] then some (s.file.getD [] ++ torn) else s.file },
      writeFailed w e)
  | _, _ => c.advance rt w answer now s

/-- What a write that fails may have written: the line up to any byte but its last. -/
def AppendCall.tears (c : AppendCall) (torn : Bytes) : Prop :=
  match c.phase with
  | .appending _ line => torn <+: encodeUtf8 line ∧ torn ≠ encodeUtf8 line
  | _ => True

/-- The appends of one writer, under faults that may leave a part of a line in the file. -/
def tornMutex (rt : Runtime) (w : AuditWriter) : PromiseMutex WriterState AppendCall where
  queued c := c.phase = .queued ∧ c.args.payload.isJson = true
  settled := AppendCall.settled
  resume s c s' c' := ∃ answer torn now, c.truthful s answer ∧ c.tears torn ∧
    s' = (c.advanceTorn rt w answer torn now s).1 ∧
    c' = { c with phase := (c.advanceTorn rt w answer torn now s).2 }
  not_settled _ hq := AppendCall.queued_not_settled hq

def EndsLine (file : Option Bytes) : Prop :=
  file.getD [] = [] ∨ (file.getD []).getLast? = some 0x0A

/-- An append that puts its line into the file finds no part of a line at its end. -/
def WritesWhole (s : WriterState) (c : AppendCall) (_ : WriterState) (c' : AppendCall) : Prop :=
  c.written? = none → c'.written? ≠ none → EndsLine s.file

/-- The log has exactly the lines of the entries, and `audit verify` accepts it. -/
structure AcceptedLog (rt : Runtime) (w : AuditWriter) (s : WriterState) (es : List AuditEntry) : Prop where
  lines : recordLines (s.file.getD []) = es.map AuditEntry.text
  verified : ∀ json enoent, runAuditVerify rt json (readLog s.file enoent) (.ok w.key) =
    .ok (acceptedLog json es.length)

theorem ChainedLog.accepted {rt : Runtime} {w : AuditWriter} {s : WriterState} {es : List AuditEntry}
    (h : ChainedLog rt w s es) : AcceptedLog rt w s es := by
  refine ⟨?_, fun json enoent => runAuditVerify_chained json enoent h.holds h.chained⟩
  have hholds : s.file.getD [] = es.flatMap AuditEntry.bytes := h.holds
  rw [hholds, recordLines_log]

/-! ### A part of a line has no line break -/

theorem newline_of_mem_utf8EncodeChar {c : Char} (h : 0x0A ∈ String.utf8EncodeChar c) : c = '\n' := by
  have htail := utf8EncodeChar_tail c
  have hround := decodeScalars_utf8EncodeChar c []
  cases hbytes : String.utf8EncodeChar c with
  | nil =>
    rw [hbytes] at h
    cases h
  | cons b rest =>
    rw [hbytes] at h htail hround
    rcases List.mem_cons.mp h with rfl | hrest
    · exact (List.cons.inj hround).1.symm
    · exact absurd (htail _ hrest).1 (by decide)

theorem newline_mem_encodeUtf8 {s : JsString} (hs : Paired s) (h : 0x0A ∈ encodeUtf8 s) : 0x0A ∈ s := by
  obtain ⟨cs, rfl⟩ := hs
  rw [encodeUtf8, scalars_ofScalars] at h
  obtain ⟨c, hc, hbyte⟩ := List.mem_flatMap.mp h
  obtain rfl := newline_of_mem_utf8EncodeChar hbyte
  exact List.mem_flatMap.mpr ⟨_, hc, List.mem_singleton.mpr rfl⟩

theorem AuditEntry.torn_noNewline {e : AuditEntry} {torn : Bytes}
    (hlead : torn <+: encodeUtf8 (e.text ++ [0x0A])) (hne : torn ≠ encodeUtf8 (e.text ++ [0x0A])) :
    0x0A ∉ torn := by
  change torn <+: e.bytes at hlead
  change torn ≠ e.bytes at hne
  rw [e.bytes_eq] at hlead hne
  have htext : torn <+: encodeUtf8 e.text := (List.prefix_concat_iff.mp hlead).resolve_left hne
  intro hmem
  exact e.text_noNewline (newline_mem_encodeUtf8 (jsonText_paired _) (htext.subset hmem))

/-! ### The log under a torn line -/

/-- The file is a log followed by parts of lines. -/
structure TornFile (s : WriterState) (log : Bytes) : Prop where
  tail : ∃ tail, s.file = some (log ++ tail) ∧ tail ≠ [] ∧ 0x0A ∉ tail
  warm : ¬ Cold s

/-- The append goes on with what it holds, and does not look at the file. -/
def AppendPhase.Prepared : AppendPhase → Prop
  | .keying _ _ => True
  | .makingDir _ _ => True
  | .appending _ _ => True
  | _ => False

def WriterState.withLog (s : WriterState) (log : Bytes) : WriterState := { s with file := some log }

variable {rt : Runtime} {w : AuditWriter} {es : List AuditEntry} {s : WriterState} {log : Bytes}
  {done : List AppendCall} {c c' : AppendCall}

/-- The log between two appends: intact, or under a torn line that the caches do not know of. -/
def TearIdle (rt : Runtime) (w : AuditWriter) (es : List AuditEntry) (s : WriterState)
    (done : List AppendCall) : Prop :=
  IdleLog rt w es s done ∨ ∃ log, TornFile s log ∧ IdleLog rt w es (s.withLog log) done

def TearBusy (rt : Runtime) (w : AuditWriter) (es : List AuditEntry) (s : WriterState)
    (done : List AppendCall) (c : AppendCall) : Prop :=
  BusyLog rt w es s done c ∨
    ∃ log, TornFile s log ∧ BusyLog rt w es (s.withLog log) done c ∧ c.phase.Prepared

def TearProgress (rt : Runtime) (w : AuditWriter) (es : List AuditEntry) (s : WriterState)
    (done : List AppendCall) (c : AppendCall) : Prop :=
  (c.settled ∧ TearIdle rt w es s (done ++ [c])) ∨
    (¬ (c.phase = .queued ∧ c.args.payload.isJson = true) ∧ ¬ c.settled ∧ TearBusy rt w es s done c)

theorem Progress.intact (h : Progress rt w es s done c) : TearProgress rt w es s done c := by
  rcases h with ⟨hs, hidle⟩ | ⟨hq, hs, hbusy⟩
  · exact .inl ⟨hs, .inl hidle⟩
  · exact .inr ⟨hq, hs, .inl hbusy⟩

/-- What an append does under a torn line, it does as on the log without it. -/
theorem Progress.torn (htorn : TornFile s log) (h : Progress rt w es (s.withLog log) done c)
    (hphase : c.settled ∨ c.phase.Prepared) : TearProgress rt w es s done c := by
  rcases h with ⟨hs, hidle⟩ | ⟨hq, hs, hbusy⟩
  · exact .inl ⟨hs, .inr ⟨log, htorn, hidle⟩⟩
  · exact .inr ⟨hq, hs, .inr ⟨log, htorn, hbusy, hphase.resolve_left hs⟩⟩

theorem TornFile.not_endsLine (h : TornFile s log) : ¬ EndsLine s.file := by
  obtain ⟨tail, hfile, hne, hno⟩ := h.tail
  obtain ⟨init, b, rfl⟩ := (List.eq_nil_or_concat tail).resolve_left hne
  rw [hfile]
  rintro (hempty | hlast)
  · exact absurd hempty (by simp)
  · rw [Option.getD_some, List.concat_eq_append, ← List.append_assoc, List.getLast?_concat] at hlast
    obtain rfl := Option.some.inj hlast
    exact hno (by simp)

theorem sign_phase (rt : Runtime) (w : AuditWriter) (a : AppendArgs) (prevHmac : JsString)
    (minus : EntryMinus) : AppendCall.settled ⟨a, sign rt w prevHmac minus⟩ ∨
      (sign rt w prevHmac minus).Prepared := by
  unfold sign
  split
  · exact .inl trivial
  · dsimp only
    split
    · exact .inl trivial
    · exact .inr trivial

theorem prepare_phase (w : AuditWriter) (now : Except JsString JsString) (s : WriterState)
    (a : AppendArgs) : AppendCall.settled ⟨a, prepare w now s a⟩ ∨ (prepare w now s a).Prepared := by
  cases now with
  | error message => exact .inl trivial
  | ok timestamp => exact .inr trivial

/-- An append that enters under a torn line finds its caches warm, so it does not read the file. -/
theorem advance_queued_torn {a : AppendArgs} (answer : Answer) (now : Except JsString JsString)
    (htorn : TornFile s log) (h : IdleLog rt w es (s.withLog log) done) (hp : a.payload.isJson = true) :
    TearProgress rt w es (AppendCall.advance rt w answer now s ⟨a, .queued⟩).1 done
      ⟨a, (AppendCall.advance rt w answer now s ⟨a, .queued⟩).2⟩ := by
  have hwarm : Warm s (es ++ entriesOf done) := h.2.1.resolve_left htorn.warm
  have hadvance (s : WriterState) (hs : Warm s (es ++ entriesOf done)) :
      AppendCall.advance rt w answer now s ⟨a, .queued⟩ = (s, prepare w now s a) := by
    simp only [AppendCall.advance]
    rw [if_neg (by rw [hs.1, hs.2]; simp)]
  have hprogress := advance_queued answer now h hp
  rw [hadvance (s.withLog log) hwarm] at hprogress
  rw [hadvance s hwarm]
  exact hprogress.torn htorn (prepare_phase w now s a)

theorem advanceTorn_eq {answer : Answer} {torn : Bytes} {now : Except JsString JsString}
    (h : ∀ entry line e, c.phase = .appending entry line → answer.fault = some e → torn = []) :
    c.advanceTorn rt w answer torn now s = c.advance rt w answer now s := by
  unfold AppendCall.advanceTorn
  split
  · rename_i entry line e hphase hfault
    obtain rfl := h entry line e hphase hfault
    rw [AppendCall.advance.eq_def, hphase]
    simp only [hfault, ne_eq, not_true_eq_false, or_false, List.append_nil]
  · rfl

theorem advanceTorn_intact {answer : Answer} {torn : Bytes} {now : Except JsString JsString}
    (h : BusyLog rt w es s done c) (ht : c.truthful s answer) (htears : c.tears torn) :
    TearProgress rt w es (c.advanceTorn rt w answer torn now s).1 done
      { c with phase := (c.advanceTorn rt w answer torn now s).2 } := by
  obtain ⟨a, phase⟩ := c
  obtain ⟨fault, created⟩ := answer
  by_cases htear : ∃ entry line e, phase = .appending entry line ∧ fault = some e ∧ torn ≠ []
  · obtain ⟨entry, line, e, rfl, rfl, hne⟩ := htear
    obtain ⟨⟨hlog, hwarm, hfollows, rfl, hrec⟩, hp, hr⟩ := h
    have hrejected := advance_appending entry (entry.text ++ [0x0A]) ⟨some e, true⟩ now
      ⟨⟨hlog, hwarm, hfollows, rfl, hrec⟩, hp, hr⟩
    have hfile : (AppendCall.advanceTorn rt w ⟨some e, created⟩ torn now s
        ⟨a, .appending entry (entry.text ++ [0x0A])⟩).1 =
          { s with file := some (s.file.getD [] ++ torn) } := by
      simp only [AppendCall.advanceTorn, hne, ne_eq, not_false_eq_true, or_true, ↓reduceIte]
    rw [hfile]
    refine hrejected.torn (⟨⟨torn, rfl, hne, ?_⟩, ?_⟩ : TornFile _ (s.file.getD [])) (.inl trivial)
    · exact entry.torn_noNewline htears.1 htears.2
    · intro hcold
      have hsome : s.cachedPrevHmac = none := hcold.1
      rw [hwarm.1] at hsome
      cases hsome
  · rw [advanceTorn_eq fun entry line e hphase hfault => ?_]
    · exact (advance_busy ⟨fault, created⟩ now _ h ht).intact
    · by_contra hne
      exact htear ⟨entry, line, e, hphase, hfault, hne⟩

/-- Under a torn line an append that may not write goes on to be refused. -/
theorem advanceTorn_torn {answer : Answer} {torn : Bytes} {now : Except JsString JsString}
    (htorn : TornFile s log) (h : BusyLog rt w es (s.withLog log) done c) (hphase : c.phase.Prepared)
    (htears : c.tears torn)
    (hwhole : WritesWhole s c (c.advanceTorn rt w answer torn now s).1
      { c with phase := (c.advanceTorn rt w answer torn now s).2 }) :
    TearProgress rt w es (c.advanceTorn rt w answer torn now s).1 done
      { c with phase := (c.advanceTorn rt w answer torn now s).2 } := by
  obtain ⟨a, phase⟩ := c
  obtain ⟨fault, created⟩ := answer
  have hstep {phase : AppendPhase} (hb : BusyLog rt w es (s.withLog log) done ⟨a, phase⟩)
      (ht : AppendCall.truthful (s.withLog log) ⟨a, phase⟩ ⟨fault, false⟩) :=
    advance_busy ⟨fault, false⟩ now ⟨a, phase⟩ hb ht
  cases phase with
  | keying prevHmac minus =>
    have hprogress := hstep h trivial
    cases fault with
    | some e => exact hprogress.torn htorn (.inl trivial)
    | none => exact hprogress.torn htorn (sign_phase rt w a prevHmac minus)
  | makingDir entry line =>
    have hprogress := hstep h trivial
    cases fault with
    | some e => exact hprogress.torn htorn (.inl trivial)
    | none => exact hprogress.torn htorn (.inr trivial)
  -- only here is the file written: whole lines are excluded, and a torn one lengthens the tail
  | appending entry line =>
    cases fault with
    | none => exact absurd (hwhole rfl nofun) htorn.not_endsLine
    | some e =>
      obtain ⟨tail, hfile, hne, hno⟩ := htorn.tail
      obtain ⟨-, -, -, rfl, -⟩ := h.1
      have hpart := entry.torn_noNewline htears.1 htears.2
      have hprogress := hstep h trivial
      refine @Progress.torn _ _ _ _ log _ _ ⟨?_, htorn.warm⟩ hprogress (.inl trivial)
      simp only [AppendCall.advanceTorn, hfile, Option.getD_some]
      split_ifs
      · refine ⟨tail ++ torn, by rw [List.append_assoc], ?_, ?_⟩
        · exact fun hnil => hne (List.append_eq_nil_iff.mp hnil).1
        · exact fun hmem => (List.mem_append.mp hmem).elim hno hpart
      · exact ⟨tail, rfl, hne, hno⟩
  | queued => exact hphase.elim
  | stating => exact hphase.elim
  | opening size => exact hphase.elim
  | reading size => exact hphase.elim
  | closing failed => exact hphase.elim
  | written entry => exact hphase.elim
  | resolved entry => exact hphase.elim
  | rejected err => exact hphase.elim

/-- A writer whose lines all start on their own keeps its log chained under what was torn. -/
def tearInvariant (rt : Runtime) (w : AuditWriter) (es : List AuditEntry) :
    ((tornMutex rt w).restrict WritesWhole).SerialInvariant where
  Idle := TearIdle rt w es
  Busy := TearBusy rt w es
  enter := by
    rintro s done ⟨a, phase⟩ s' c' hidle ⟨hq, hp⟩ ⟨⟨answer, torn, now, -, -, rfl, rfl⟩, -⟩
    change phase = .queued at hq
    subst hq
    rcases hidle with hidle | ⟨log, htorn, hidle⟩
    · exact (advance_queued answer now hidle hp).intact
    · exact advance_queued_torn answer now htorn hidle hp
  resume := by
    rintro s done c s' c' hbusy ⟨⟨answer, torn, now, ht, htears, rfl, rfl⟩, hwhole⟩
    rcases hbusy with hbusy | ⟨log, htorn, hbusy, hphase⟩
    · exact advanceTorn_intact hbusy ht htears
    · exact advanceTorn_torn htorn hbusy hphase htears hwhole

/-- The last call goes on under an answer that fits what it awaits. -/
theorem tornRuns_last (done : List AppendCall) {s0 s : WriterState} {a : AppendArgs} {phase : AppendPhase}
    (answer : Answer)
    (torn : Bytes) (now : Except JsString JsString)
    (h : ((tornMutex rt w).restrict WritesWhole).Runs s0 (s, done ++ [⟨a, phase⟩]))
    (hd : ∀ b ∈ done, b.settled) (hs : ¬ AppendCall.settled ⟨a, phase⟩)
    (ht : AppendCall.truthful s ⟨a, phase⟩ answer) (htears : AppendCall.tears ⟨a, phase⟩ torn)
    (hwhole : AppendCall.written? ⟨a, (AppendCall.advanceTorn rt w answer torn now s ⟨a, phase⟩).2⟩ = none ∨
      EndsLine s.file) :
    ((tornMutex rt w).restrict WritesWhole).Runs s0
      ((AppendCall.advanceTorn rt w answer torn now s ⟨a, phase⟩).1,
        done ++ [⟨a, (AppendCall.advanceTorn rt w answer torn now s ⟨a, phase⟩).2⟩]) :=
  h.last hd hs ⟨⟨answer, torn, now, ht, htears, rfl, rfl⟩, fun _ hwritten => hwhole.resolve_left hwritten⟩

theorem jsonParse_doubleBrace (rest : JsString) : jsonParse (0x7B :: 0x7B :: rest) = none := by
  have hbrace (rest : JsString) : nextUnit (0x7B :: rest) = some (0x7B, rest) := nextUnit_cons _ _ rfl
  simp [jsonParse, parseValue, parseMembers, hbrace]

/-- What `audit verify` says of a log with one line that is not JSON. -/
theorem runAuditVerify_garbage {line : JsString} (key : Bytes) (enoent : JsString) (hp : Paired line)
    (hne : line ≠ []) (hno : NoNewline line) (hparse : jsonParse line = none) :
    runAuditVerify rt false (readLog (some (encodeUtf8 (line ++ [0x0A]))) enoent) (.ok key) =
      .ok ((VerifyState.initial.fail .parseError (.ofNat 1)).report false) := by
  have hdecode : decodeUtf8 (encodeUtf8 (line ++ [0x0A])) = line ++ [0x0A] :=
    decodeUtf8_encodeUtf8 (hp.append newline_paired)
  have hsplit : line.splitOn 0x0A = [line] := by
    have hlines : ∀ l ∈ [line], (0x0A : CodeUnit) ∉ l := List.forall_mem_singleton.mpr hno
    simpa using List.splitOn_intercalate (0x0A : CodeUnit) hlines (List.cons_ne_nil _ _)
  simp only [readLog, runAuditVerify, hdecode, List.getLast?_concat, List.dropLast_concat, ↓reduceIte]
  change (if line = [] then _ else _) = _
  rw [if_neg hne, hsplit, verifyLines, verifyLine, if_neg hne, hparse]
  rfl

/-- A warm append goes on to its write. -/
theorem tornRuns_appending {s0 : WriterState} {a : AppendArgs} {timestamp : JsString}
    (hp : a.payload.isJson = true) (hwarm : Warm s es) (hd : ∀ b ∈ done, b.settled)
    (h : ((tornMutex rt w).restrict WritesWhole).Runs s0
      (s, done ++ [⟨a, prepare w (.ok timestamp) s a⟩])) :
    ∃ entry : AuditEntry,
      ((tornMutex rt w).restrict WritesWhole).Runs s0
        (s, done ++ [⟨a, .appending entry (entry.text ++ [0x0A])⟩]) := by
  have hseq : (s.cachedPrevSeq.getD (.ofNat 0)).add (.ofNat 1) = .ofNat (es.length+1) := by
    rw [hwarm.2]
    exact JsNumber.ofNat_add _ 1
  obtain ⟨entry, hsign, -⟩ := sign_isJson rt w
    { actor := a.actor.getD w.defaultActor, event := a.event, payload := a.payload
      platform := a.platform.getD none
      seq := (s.cachedPrevSeq.getD (.ofNat 0)).add (.ofNat 1), timestamp }
    (s.cachedPrevHmac.getD genesisPrevHmac) hp (by rw [hseq]; rfl)
  have hmaking : ((tornMutex rt w).restrict WritesWhole).Runs s0
      (s, done ++ [⟨a, .makingDir entry (entry.text ++ [0x0A])⟩]) := by
    rw [← hsign]
    refine tornRuns_last done ⟨none, false⟩ [] (.ok timestamp) h hd id trivial trivial (.inl ?_)
    change AppendCall.written? ⟨a, sign rt w _ _⟩ = none
    rw [hsign]
    rfl
  exact ⟨entry, tornRuns_last done ⟨none, false⟩ [] (.ok timestamp) hmaking hd id trivial trivial (.inl rfl)⟩

/-- The first append on an absent log goes on to its write. -/
theorem tornRuns_first (rt : Runtime) (w : AuditWriter) {a : AppendArgs} (timestamp : JsString)
    (hp : a.payload.isJson = true) : ∃ entry : AuditEntry, ((tornMutex rt w).restrict WritesWhole).Runs
      (.fresh none) (⟨none, some genesisPrevHmac, some (.ofNat 0)⟩,
        [⟨a, .appending entry (entry.text ++ [0x0A])⟩]) := by
  have hnil : ∀ b ∈ ([] : List AppendCall), b.settled := fun _ hb => absurd hb List.not_mem_nil
  have hcall : ((tornMutex rt w).restrict WritesWhole).Runs (.fresh none)
    (.fresh none, [] ++ [⟨a, .queued⟩]) :=
    .single (.call _ [] _ ⟨rfl, hp⟩)
  have hstating : ((tornMutex rt w).restrict WritesWhole).Runs (.fresh none)
      (.fresh none, [] ++ [⟨a, .stating⟩]) :=
    tornRuns_last [] ⟨none, false⟩ [] (.ok timestamp) hcall hnil id trivial trivial (.inl rfl)
  have hkeying := tornRuns_last [] ⟨none, false⟩ [] (.ok timestamp) hstating hnil id trivial
    trivial (.inl rfl)
  exact tornRuns_appending hp (show Warm _ [] from ⟨rfl, rfl⟩) hnil hkeying

theorem AuditEntry.tears_short (entry : AuditEntry) {a : AppendArgs} {torn : Bytes} (h : torn <+: [0x7B]) :
    AppendCall.tears ⟨a, .appending entry (entry.text ++ [0x0A])⟩ torn := by
  have hline : ∃ rest, entry.bytes = 0x7B :: rest ++ [0x0A] := by
    obtain ⟨rest, hrest⟩ : ∃ rest, entry.text = 0x7B :: rest := ⟨_, rfl⟩
    rw [entry.bytes_eq, hrest, encodeUtf8, scalars_cons _ _ rfl]
    exact ⟨_, rfl⟩
  obtain ⟨rest, hrest⟩ := hline
  change torn <+: entry.bytes ∧ torn ≠ entry.bytes
  rw [hrest]
  refine ⟨h.trans ⟨rest ++ [0x0A], rfl⟩, ?_⟩
  rintro rfl
  have hlen := h.length_le
  simp at hlen

/-- Two appends on an absent log: the write of the first leaves one byte, the second goes on to its
write. -/
theorem tornRuns_second (rt : Runtime) (w : AuditWriter) (a : AppendArgs) (timestamp : JsString)
    (e : ErrnoException) (hp : a.payload.isJson = true) : ∃ entry : AuditEntry,
      ((tornMutex rt w).restrict WritesWhole).Runs (.fresh none)
        (⟨some [0x7B], some genesisPrevHmac, some (.ofNat 0)⟩,
          [⟨a, writeFailed w e⟩] ++ [⟨a, .appending entry (entry.text ++ [0x0A])⟩]) := by
  have hnil : ∀ b ∈ ([] : List AppendCall), b.settled := fun _ hb => absurd hb List.not_mem_nil
  obtain ⟨first, hfirst⟩ := tornRuns_first rt w timestamp hp
  have htorn : ((tornMutex rt w).restrict WritesWhole).Runs (.fresh none)
      (⟨some [0x7B], some genesisPrevHmac, some (.ofNat 0)⟩, [⟨a, writeFailed w e⟩]) :=
    tornRuns_last [] ⟨some e, false⟩ [0x7B] (.ok timestamp) hfirst hnil id trivial
      (first.tears_short (List.prefix_refl _)) (.inl rfl)
  have hd : ∀ b ∈ [(⟨a, writeFailed w e⟩ : AppendCall)], b.settled := List.forall_mem_singleton.mpr trivial
  have hcalled : ((tornMutex rt w).restrict WritesWhole).Runs (.fresh none)
      (⟨some [0x7B], some genesisPrevHmac, some (.ofNat 0)⟩, [⟨a, writeFailed w e⟩] ++ [⟨a, .queued⟩]) :=
    htorn.tail (.call _ _ _ ⟨rfl, hp⟩)
  have hkeying := tornRuns_last _ ⟨none, false⟩ [] (.ok timestamp) hcalled hd id trivial trivial (.inl rfl)
  exact tornRuns_appending hp (show Warm _ [] from ⟨rfl, rfl⟩) hd hkeying

end Homelab
