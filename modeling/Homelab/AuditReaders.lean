import Homelab.AuditTears

/-! `getLastHmac` beside the appends of one `AuditWriter`. It recovers the caches outside the queue
of the appends, so what it assigns may be older than what an append has put there since its `stat`.
-/
namespace Homelab
open Js

/-! ### `getLastHmac` -/

/-- Where a call of `getLastHmac` stands. What an operation found is kept apart from the code that
goes on with it, since appends may run in between. -/
inductive ReaderPhase
  | stating
  | stated (found : Except ErrnoException ℕ)
  | opening (size : ℕ)
  | reading (size : ℕ)
  | read (size : ℕ) (found : Except ErrnoException Bytes)
  | closing (failed : Option ErrnoException)
  | recovered
  | resolved (hmac : JsString)
  | rejected (e : ErrnoException)

def isMissing (e : ErrnoException) : Prop := e.code = some (js "ENOENT")

instance (e : ErrnoException) : Decidable (isMissing e) := inferInstanceAs (Decidable (_ = _))

/-- `getLastHmac` up to its first await. -/
def getLastHmac (s : WriterState) : ReaderPhase :=
  match s.cachedPrevHmac with
  | some hmac => .resolved hmac
  | none => .stating

/-- The caches after `recoverState` has found these values. -/
def WriterState.recover (s : WriterState) (hmac : JsString) (seq : JsNumber) : WriterState :=
  { s with cachedPrevHmac := some hmac, cachedPrevSeq := some seq }

/-- One step of a `getLastHmac`: an operation on the file ends, with a `fault` or without one, or
the code goes on to its next await. -/
def ReaderPhase.advance (rt : Runtime) (w : AuditWriter) (fault : Option ErrnoException) (s : WriterState) :
    ReaderPhase → WriterState × ReaderPhase
  | .stating =>
    match fault, s.file with
    | some e, _ => (s, .stated (.error e))
    | none, some bytes => (s, .stated (.ok bytes.length))
    | none, none => (s, .stated (.error ⟨some (js "ENOENT"), []⟩))
  | .stated (.error e) =>
    if isMissing e then (s.recover genesisPrevHmac (.ofNat 0), .recovered) else (s, .rejected e)
  | .stated (.ok size) =>
    if size = 0 then (s.recover genesisPrevHmac (.ofNat 0), .recovered) else (s, .opening size)
  | .opening size =>
    match fault with
    | some e => (s, .rejected e)
    | none => (s, .reading size)
  | .reading size =>
    match fault with
    | some e => (s, .read size (.error e))
    | none => (s, .read size (.ok (readTail (s.file.getD []) size)))
  | .read _ (.error e) => (s, .closing (some e))
  | .read _ (.ok buf) =>
    match recoverFrom rt w.logPath buf with
    | .error e => (s, .closing (some e))
    | .ok (hmac, seq) => (s.recover hmac seq, .closing none)
  | .closing failed =>
    match fault, failed with
    | some e, _ => (s, .rejected e)
    | none, some e => (s, .rejected e)
    | none, none => (s, .recovered)
  | .recovered => (s, .resolved (s.cachedPrevHmac.getD genesisPrevHmac))
  | .resolved hmac => (s, .resolved hmac)
  | .rejected e => (s, .rejected e)

/-- `stat` reports a missing file only when the file is missing. -/
def ReaderPhase.truthful (fault : Option ErrnoException) (s : WriterState) : ReaderPhase → Prop
  | .stating => ∀ e, fault = some e → isMissing e → s.file = none
  | _ => True

/-- The size that the `stat` of a call has found, where the call is about to assign the caches. -/
def ReaderPhase.assigns (rt : Runtime) (w : AuditWriter) : ReaderPhase → Option ℕ
  | .stated (.error e) => if isMissing e then some 0 else none
  | .stated (.ok size) => if size = 0 then some 0 else none
  | .read size (.ok buf) =>
    match recoverFrom rt w.logPath buf with
    | .error _ => none
    | .ok _ => some size
  | _ => none

/-- The caches name no entry beyond the lines in the first `size` bytes of the log. -/
def NamesWithin (s : WriterState) (size : ℕ) : Prop :=
  ∀ seq, s.cachedPrevSeq = some seq → ∃ n ≤ ((s.file.getD []).take size).count 0x0A, seq = .ofNat n

/-- A call that assigns the caches has seen in its `stat` the line that they name. -/
def Unstale (rt : Runtime) (w : AuditWriter) (s : WriterState) (r : ReaderPhase) : Prop :=
  ∀ size, r.assigns rt w = some size → NamesWithin s size

/-- One writer: its caches and log, its appends, and its calls of `getLastHmac`. -/
structure WriterCalls where
  state : WriterState
  appends : List AppendCall
  readers : List ReaderPhase

/-- A step of any of the calls, where those of `getLastHmac` that go on meet a condition. -/
inductive WriterStep (rt : Runtime) (w : AuditWriter) (meets : WriterState → ReaderPhase → Prop) :
    WriterCalls → WriterCalls → Prop
  | append {s s' : WriterState} {calls calls' : List AppendCall} (readers : List ReaderPhase)
      (h : (auditMutex rt w).Step (s, calls) (s', calls')) :
      WriterStep rt w meets ⟨s, calls, readers⟩ ⟨s', calls', readers⟩
  | getLastHmac (s : WriterState) (calls : List AppendCall) (readers : List ReaderPhase) :
      WriterStep rt w meets ⟨s, calls, readers⟩ ⟨s, calls, readers ++ [getLastHmac s]⟩
  | reader (fault : Option ErrnoException) (s : WriterState) (calls : List AppendCall)
      (before after : List ReaderPhase) (r : ReaderPhase) (ht : r.truthful fault s) (hmeets : meets s r) :
      WriterStep rt w meets ⟨s, calls, before ++ r :: after⟩
        ⟨(r.advance rt w fault s).1, calls, before ++ (r.advance rt w fault s).2 :: after⟩

/-- Any interleaving of the calls made since the state was `s` with no call in flight. -/
def WriterRuns (rt : Runtime) (w : AuditWriter) (meets : WriterState → ReaderPhase → Prop) :
    WriterCalls → WriterCalls → Prop :=
  Relation.ReflTransGen (WriterStep rt w meets)

/-- The caches of a later state name no earlier entry. -/
def NeverBack (s s' : WriterState) : Prop :=
  ∀ m, s.cachedPrevSeq = some (.ofNat m) → ∃ n, s'.cachedPrevSeq = some (.ofNat n) ∧ m ≤ n

/-- The caches are empty, or they hold the number and the HMAC of an entry, or of the start. -/
def CachesName (s : WriterState) (es : List AuditEntry) : Prop :=
  Cold s ∨ ∃ n ≤ es.length, s.cachedPrevHmac = some (hmacBefore es n) ∧ s.cachedPrevSeq = some (.ofNat n)

/-! ### Parts of the log that end with a line -/

theorem AuditEntry.text_bytes_noNewline (e : AuditEntry) : 0x0A ∉ encodeUtf8 e.text := fun hmem =>
  e.text_noNewline (newline_mem_encodeUtf8 (jsonText_paired _) hmem)

theorem count_newlines (es : List AuditEntry) : (es.flatMap AuditEntry.bytes).count 0x0A = es.length := by
  induction es with
  | nil => rfl
  | cons e es ih =>
    rw [List.flatMap_cons, List.count_append, ih, e.bytes_eq, List.count_append,
      List.count_eq_zero_of_not_mem e.text_bytes_noNewline, List.length_cons]
    simp
    omega

/-- A part of the log that ends with a line break holds the first entries. -/
theorem entries_of_endsLine {es : List AuditEntry} {part : Bytes}
    (hpart : part <+: es.flatMap AuditEntry.bytes)
    (hends : EndsLine (some part)) : ∃ n ≤ es.length, part = (es.take n).flatMap AuditEntry.bytes := by
  induction es generalizing part with
  | nil => exact ⟨0, le_rfl, List.prefix_nil.mp hpart⟩
  | cons e es ih =>
    obtain ⟨t, ht⟩ := hpart
    rw [List.flatMap_cons] at ht
    rcases List.append_eq_append_iff.mp ht with ⟨more, hbytes, -⟩ | ⟨rest, rfl, hrest⟩
    · by_cases hall : part = e.bytes
      · exact ⟨1, Nat.succ_le_succ (Nat.zero_le _), by rw [hall]; simp⟩
      · refine ⟨0, Nat.zero_le _, ?_⟩
        have hno : 0x0A ∉ part := e.torn_noNewline ⟨more, hbytes.symm⟩ hall
        exact hends.resolve_right fun hlast => hno (List.mem_of_getLast? hlast)
    · have hrestEnds : EndsLine (some rest) := by
        rcases List.eq_nil_or_concat rest with rfl | ⟨init, b, rfl⟩
        · exact .inl rfl
        · refine .inr ?_
          rcases hends with hnil | hlast
          · exact absurd (List.append_eq_nil_iff.mp hnil).1 e.bytes_ne_nil
          · rw [Option.getD_some, List.concat_eq_append, ← List.append_assoc, List.getLast?_concat] at hlast
            rw [Option.getD_some, List.concat_eq_append, List.getLast?_concat, hlast]
      obtain ⟨n, hn, hrest'⟩ := ih ⟨t, hrest.symm⟩ hrestEnds
      refine ⟨n+1, Nat.succ_le_succ hn, ?_⟩
      rw [List.take_succ_cons, List.flatMap_cons, ← hrest']

theorem Chained.take {rt : Runtime} {key : Bytes} {prevHmac : JsString} {prevSeq : ℕ} {es : List AuditEntry}
    (h : Chained rt key prevHmac prevSeq es) (n : ℕ) : Chained rt key prevHmac prevSeq (es.take n) := by
  induction es generalizing prevHmac prevSeq n with
  | nil =>
    rw [List.take_nil]
    trivial
  | cons e es ih =>
    cases n with
    | zero => trivial
    | succ n => exact ⟨h.1, ih h.2 n⟩

theorem readTail_take {file : Bytes} {size : ℕ} (h : size ≤ file.length) :
    readTail file size = readTail (file.take size) (file.take size).length := by
  have hlen : (file.take size).length = size := by
    rw [List.length_take]
    omega
  rw [hlen]
  simp only [readTail]
  rw [List.drop_take, List.take_take]
  congr 1
  omega

theorem EndsLine.chained {rt : Runtime} {w : AuditWriter} {s : WriterState} {es : List AuditEntry}
    (h : ChainedLog rt w s es) : EndsLine s.file := by
  have hholds : s.file.getD [] = es.flatMap AuditEntry.bytes := h.holds
  rw [EndsLine, hholds]
  rcases List.eq_nil_or_concat es with rfl | ⟨init, e, rfl⟩
  · exact .inl rfl
  · obtain ⟨u, hu⟩ := flatMap_bytes_getLast (init.concat e) (by simp)
    rw [hu]
    exact .inr List.getLast?_concat

/-! ### What a call of `getLastHmac` has seen -/

/-- The size that a `stat` has found, still good: it ends a line, and it is the whole log as long as
the caches are empty. -/
structure SeenOk (s : WriterState) (size : ℕ) : Prop where
  le : size ≤ (s.file.getD []).length
  ends : EndsLine (some ((s.file.getD []).take size))
  cold : Cold s → size = (s.file.getD []).length

/-- What a call of `getLastHmac` holds is good. -/
def ReaderOk (s : WriterState) : ReaderPhase → Prop
  | .stated (.ok size) => SeenOk s size
  | .stated (.error e) => isMissing e → SeenOk s 0
  | .opening size => SeenOk s size
  | .reading size => SeenOk s size
  | .read size (.ok buf) => SeenOk s size ∧ buf = readTail (s.file.getD []) size
  | _ => True

variable {rt : Runtime} {w : AuditWriter} {es : List AuditEntry} {s s' : WriterState}

/-- A step that lets the log grow, and leaves no cache empty where it does, keeps what was seen
good. -/
theorem SeenOk.grow {size : ℕ} {more : Bytes} (h : SeenOk s size)
    (hfile : s'.file.getD [] = s.file.getD [] ++ more) (hcold : Cold s' → Cold s ∧ more = []) :
    SeenOk s' size := by
  refine ⟨?_, ?_, fun hc => ?_⟩
  · rw [hfile, List.length_append]
    exact Nat.le_add_right_of_le h.le
  · rw [hfile, List.take_append_of_le_length h.le]
    exact h.ends
  · obtain ⟨hs, rfl⟩ := hcold hc
    rw [hfile, List.append_nil]
    exact h.cold hs

theorem ReaderOk.grow {r : ReaderPhase} {more : Bytes} (h : ReaderOk s r)
    (hfile : s'.file.getD [] = s.file.getD [] ++ more) (hcold : Cold s' → Cold s ∧ more = []) :
    ReaderOk s' r := by
  cases r with
  | stated found =>
    cases found with
    | error e => exact fun he => (h he).grow hfile hcold
    | ok size => exact SeenOk.grow h hfile hcold
  | opening size => exact SeenOk.grow h hfile hcold
  | reading size => exact SeenOk.grow h hfile hcold
  | read size found =>
    cases found with
    | error e => trivial
    | ok buf =>
      obtain ⟨hseen, hbuf⟩ := h
      refine ⟨hseen.grow hfile hcold, hbuf.trans ?_⟩
      have hle := (hseen.grow hfile hcold).le
      rw [readTail_take hseen.le, readTail_take hle, hfile, List.take_append_of_le_length hseen.le]
  | stating => trivial
  | closing failed => trivial
  | recovered => trivial
  | resolved hmac => trivial
  | rejected e => trivial

/-- A call that assigns the caches takes their values from the first entries of the log. -/
theorem ReaderOk.assigns {r : ReaderPhase} {size : ℕ} (fault : Option ErrnoException)
    (hlog : ChainedLog rt w s es) (h : ReaderOk s r) (hassigns : r.assigns rt w = some size) :
    SeenOk s size ∧ ∃ n ≤ es.length, (s.file.getD []).take size = (es.take n).flatMap AuditEntry.bytes ∧
      (r.advance rt w fault s).1 = s.recover (hmacBefore es n) (.ofNat n) := by
  have hholds : s.file.getD [] = es.flatMap AuditEntry.bytes := hlog.holds
  have hgenesis : ∃ n ≤ es.length, (s.file.getD []).take 0 = (es.take n).flatMap AuditEntry.bytes ∧
      s.recover genesisPrevHmac (.ofNat 0) = s.recover (hmacBefore es n) (.ofNat n) :=
    ⟨0, Nat.zero_le _, rfl, rfl⟩
  cases r with
  | stated found =>
    cases found with
    -- a file that is missing, or empty, gives the values before the first entry
    | error e =>
      simp only [ReaderPhase.assigns] at hassigns
      split_ifs at hassigns with hmissing
      obtain rfl := Option.some.inj hassigns
      refine ⟨h hmissing, ?_⟩
      rw [ReaderPhase.advance, if_pos hmissing]
      exact hgenesis
    | ok found =>
      simp only [ReaderPhase.assigns] at hassigns
      split_ifs at hassigns with hzero
      obtain rfl := Option.some.inj hassigns
      subst hzero
      refine ⟨h, ?_⟩
      rw [ReaderPhase.advance, if_pos rfl]
      exact hgenesis
  | read found buf =>
    cases buf with
    | error e => cases hassigns
    | ok buf =>
      obtain ⟨hseen, rfl⟩ := h
      simp only [ReaderPhase.assigns] at hassigns
      cases hrec : recoverFrom rt w.logPath (readTail (s.file.getD []) found) with
      | error e =>
        rw [hrec] at hassigns
        cases hassigns
      | ok pair =>
        rw [hrec] at hassigns
        obtain rfl := Option.some.inj hassigns
        -- the file may have grown since, but what has been read ends with a whole line
        have hpart : (s.file.getD []).take found <+: es.flatMap AuditEntry.bytes := by
          rw [← hholds]
          exact List.take_prefix _ _
        obtain ⟨n, hn, htake⟩ := entries_of_endsLine hpart hseen.ends
        refine ⟨hseen, n, hn, htake, ?_⟩
        have htail := readTail_take hseen.le
        rw [htake] at htail
        rw [ReaderPhase.advance, hrec]
        rw [htail] at hrec
        -- recovering from no entry is an error, so there is a last one
        rcases List.eq_nil_or_concat (es.take n) with hnil | ⟨init, e, hconcat⟩
        · rw [hnil] at hrec
          cases hrec
        · have hne : es.take n ≠ [] := by
            rw [hconcat]
            simp
          rcases @recoverFrom_chained rt w _ w.logPath _ hne rfl
            (hlog.chained.take n) with hok | ⟨message, herr⟩
          · obtain rfl := Except.ok.inj (hok.symm.trans hrec)
            rw [List.length_take_of_le hn]
            rfl
          · rw [herr] at hrec
            cases hrec
  | stating => cases hassigns
  | opening size => cases hassigns
  | reading size => cases hassigns
  | closing failed => cases hassigns
  | recovered => cases hassigns
  | resolved hmac => cases hassigns
  | rejected e => cases hassigns

/-- A call that does not assign the caches leaves the writer alone. -/
theorem advance_of_not_assigns {r : ReaderPhase} (fault : Option ErrnoException)
    (h : r.assigns rt w = none) : (r.advance rt w fault s).1 = s := by
  cases r with
  | stating =>
    simp only [ReaderPhase.advance]
    split <;> rfl
  | stated found =>
    cases found with
    | error e =>
      simp only [ReaderPhase.assigns] at h
      split_ifs at h with hmissing
      rw [ReaderPhase.advance, if_neg hmissing]
    | ok size =>
      simp only [ReaderPhase.assigns] at h
      split_ifs at h with hzero
      rw [ReaderPhase.advance, if_neg hzero]
  | opening size => cases fault <;> rfl
  | reading size => cases fault <;> rfl
  | read size found =>
    cases found with
    | error e => rfl
    | ok buf =>
      simp only [ReaderPhase.assigns] at h
      simp only [ReaderPhase.advance]
      split
      · rfl
      · rename_i hrec
        rw [hrec] at h
        cases h
  | closing failed =>
    simp only [ReaderPhase.advance]
    split <;> rfl
  | recovered => rfl
  | resolved hmac => rfl
  | rejected e => rfl

theorem SeenOk.absent (h : s.file.getD [] = []) : SeenOk s 0 :=
  ⟨Nat.zero_le _, .inl rfl, fun _ => by rw [h]; rfl⟩

/-- What a call holds after a step is good again. -/
theorem ReaderOk.advance {r : ReaderPhase} {fault : Option ErrnoException} (hlog : ChainedLog rt w s es)
    (ht : r.truthful fault s) (h : ReaderOk s r) : ReaderOk s (r.advance rt w fault s).2 := by
  cases r with
  | stating =>
    simp only [ReaderPhase.advance]
    split
    · rename_i e
      intro hmissing
      exact .absent (by rw [ht e rfl hmissing]; rfl)
    · rename_i bytes _ hfile
      refine ⟨by rw [hfile]; exact le_rfl, ?_, fun _ => by rw [hfile]; rfl⟩
      have hends := EndsLine.chained hlog
      rw [hfile] at hends ⊢
      rwa [Option.getD_some, List.take_length]
    · rename_i hfile
      exact fun _ => .absent (by rw [hfile]; rfl)
  | stated found =>
    cases found with
    | error e =>
      simp only [ReaderPhase.advance]
      split_ifs <;> trivial
    | ok size =>
      simp only [ReaderPhase.advance]
      split_ifs
      · trivial
      · exact h
  | opening size =>
    cases fault with
    | some e => trivial
    | none => exact h
  | reading size =>
    cases fault with
    | some e => trivial
    | none => exact ⟨h, rfl⟩
  | read size found =>
    cases found with
    | error e => trivial
    | ok buf =>
      simp only [ReaderPhase.advance]
      split <;> trivial
  | closing failed =>
    simp only [ReaderPhase.advance]
    split <;> trivial
  | recovered => trivial
  | resolved hmac => trivial
  | rejected e => trivial

/-! ### The appends among such calls -/

/-- What is known of the log while an append waits and a call of `getLastHmac` has filled the caches
for it: during its own recovery, or with the entry that it has just written. -/
def RaceFlight (rt : Runtime) (w : AuditWriter) (s : WriterState) (es : List AuditEntry)
    (c : AppendCall) : Prop :=
  match c.phase with
  | .stating => ChainedLog rt w s es ∧ Warm s es
  | .opening size => ChainedLog rt w s es ∧ Warm s es ∧ es ≠ [] ∧ size = (s.file.getD []).length
  | .reading size => ChainedLog rt w s es ∧ Warm s es ∧ es ≠ [] ∧ size = (s.file.getD []).length
  | .closing (some _) => ChainedLog rt w s es ∧ Warm s es
  | .written entry => ChainedLog rt w s (es ++ [entry]) ∧ Warm s (es ++ [entry]) ∧
      Records w c.args entry.toEntryMinus
  | _ => False

def RaceBusy (rt : Runtime) (w : AuditWriter) (es : List AuditEntry) (s : WriterState)
    (done : List AppendCall) (c : AppendCall) : Prop :=
  (InFlight rt w s (es ++ entriesOf done) c ∨ RaceFlight rt w s (es ++ entriesOf done) c) ∧
    c.args.payload.isJson = true ∧ AllRecord w done

def RaceProgress (rt : Runtime) (w : AuditWriter) (es : List AuditEntry) (s : WriterState)
    (done : List AppendCall) (c : AppendCall) : Prop :=
  (c.settled ∧ IdleLog rt w es s (done ++ [c])) ∨
    (¬ (c.phase = .queued ∧ c.args.payload.isJson = true) ∧ ¬ c.settled ∧ RaceBusy rt w es s done c)

variable {done : List AppendCall} {c : AppendCall} {a : AppendArgs}

theorem Progress.race (h : Progress rt w es s done c) : RaceProgress rt w es s done c := by
  rcases h with hsettled | ⟨hq, hs, hflight, hp, hr⟩
  · exact .inl hsettled
  · exact .inr ⟨hq, hs, .inl hflight, hp, hr⟩

theorem RaceProgress.of_flight {phase : AppendPhase} (hp : a.payload.isJson = true) (hr : AllRecord w done)
    (h : RaceFlight rt w s (es ++ entriesOf done) ⟨a, phase⟩) : RaceProgress rt w es s done ⟨a, phase⟩ := by
  refine .inr ⟨?_, ?_, .inr h, hp, hr⟩
  · rintro ⟨hq, -⟩
    change phase = .queued at hq
    subst hq
    exact h
  · intro hs
    cases phase <;> first | exact hs | exact h

/-- An append whose recovery finds the caches filled ends it with the values that they have. -/
theorem advance_race (answer : Answer) (now : Except JsString JsString)
    (h : RaceFlight rt w s (es ++ entriesOf done) c) (hp : c.args.payload.isJson = true)
    (hr : AllRecord w done) (ht : c.truthful s answer) :
    RaceProgress rt w es (c.advance rt w answer now s).1 done
      { c with phase := (c.advance rt w answer now s).2 } := by
  obtain ⟨a, phase⟩ := c
  obtain ⟨fault, created⟩ := answer
  -- the phases of the recovery; in those after it the caches are the append's own
  cases phase with
  | stating =>
    obtain ⟨hlog, hwarm⟩ := h
    have hgenesis (hempty : s.file.getD [] = []) := warm_genesis hlog hempty
    simp only [AppendCall.advance]
    cases fault with
    | some e =>
      by_cases he : e.code = some (js "ENOENT")
      · obtain ⟨hlog', hwarm'⟩ := hgenesis (by rw [ht he]; rfl)
        simp only [he, ↓reduceIte]
        exact (Progress.of_prepare now hp hr hlog' hwarm').race
      · simp only [he, ↓reduceIte]
        exact (Progress.of_rejected hr hlog (.inr hwarm)).race
    | none =>
      cases hfile : s.file with
      | none =>
        obtain ⟨hlog', hwarm'⟩ := hgenesis (by rw [hfile]; rfl)
        rw [hfile] at hlog' hwarm'
        exact (Progress.of_prepare now hp hr hlog' hwarm').race
      | some bytes =>
        by_cases hb : bytes.length = 0
        · obtain ⟨hlog', hwarm'⟩ := hgenesis (by rw [hfile]; exact List.eq_nil_of_length_eq_zero hb)
          rw [hfile] at hlog' hwarm'
          simp only [hb, ↓reduceIte]
          exact (Progress.of_prepare now hp hr hlog' hwarm').race
        · simp only [hb, ↓reduceIte]
          -- a file that is not empty has entries
          refine .of_flight hp hr ⟨hlog, hwarm, fun hnil => hb ?_, by rw [hfile]; rfl⟩
          have hempty := hlog.holds.nil_iff.mpr hnil
          rw [hfile] at hempty
          rw [show bytes = [] from hempty]
          rfl
  | opening size =>
    obtain ⟨hlog, hwarm, hne, hsize⟩ := h
    cases fault with
    | some e => exact (Progress.of_rejected hr hlog (.inr hwarm)).race
    | none => exact .of_flight hp hr ⟨hlog, hwarm, hne, hsize⟩
  | reading size =>
    obtain ⟨hlog, hwarm, hne, rfl⟩ := h
    simp only [AppendCall.advance]
    cases fault with
    | some e => exact .of_flight hp hr ⟨hlog, hwarm⟩
    | none =>
      rcases recoverFrom_chained w.logPath hne hlog.holds hlog.chained with hok | ⟨message, herr⟩
      · simp only [hok]
        have hprogress : Progress rt w es (s.recover (lastHmac genesisPrevHmac (es ++ entriesOf done))
            (.ofNat (es ++ entriesOf done).length)) done ⟨a, .closing none⟩ :=
          .of_inFlight hp hr ⟨⟨hlog.holds, hlog.chained⟩, rfl, rfl⟩
        exact hprogress.race
      · simp only [herr]
        exact .of_flight hp hr ⟨hlog, hwarm⟩
  | closing failed =>
    cases failed with
    | none => exact h.elim
    | some e =>
      obtain ⟨hlog, hwarm⟩ := h
      cases fault <;> exact (Progress.of_rejected hr hlog (.inr hwarm)).race
  | written entry =>
    obtain ⟨hlog, -, hrec⟩ := h
    -- the append overwrites the caches, so what they hold does not matter
    have hbusy : BusyLog rt w es (s.recover (lastHmac genesisPrevHmac (es ++ entriesOf done))
        (.ofNat (es ++ entriesOf done).length)) done ⟨a, .written entry⟩ :=
      ⟨⟨⟨hlog.holds, hlog.chained⟩, ⟨rfl, rfl⟩, hrec⟩, hp, hr⟩
    exact (advance_written entry ⟨fault, created⟩ now hbusy).race
  | queued => exact h.elim
  | keying prevHmac minus => exact h.elim
  | makingDir entry line => exact h.elim
  | appending entry line => exact h.elim
  | resolved entry => exact h.elim
  | rejected err => exact h.elim

def raceInvariant (rt : Runtime) (w : AuditWriter) (es : List AuditEntry) :
    (auditMutex rt w).SerialInvariant where
  Idle := IdleLog rt w es
  Busy := RaceBusy rt w es
  enter := by
    rintro s done ⟨a, phase⟩ s' c' hidle ⟨hq, hp⟩ ⟨answer, now, -, rfl, rfl⟩
    change phase = .queued at hq
    subst hq
    exact (advance_queued answer now hidle hp).race
  resume := by
    rintro s done c s' c' ⟨hflight, hp, hr⟩ ⟨answer, now, ht, rfl, rfl⟩
    rcases hflight with hflight | hrace
    · exact (advance_busy answer now c ⟨hflight, hp, hr⟩ ht).race
    · exact advance_race answer now hrace hp hr ht

/-! ### A call of `getLastHmac` that assigns the caches -/

theorem recover_take (s : WriterState) {n : ℕ} (hn : n ≤ es.length) :
    Warm (s.recover (hmacBefore es n) (.ofNat n)) (es.take n) := by
  refine ⟨rfl, ?_⟩
  rw [List.length_take_of_le hn]
  rfl

/-- The entries that a call has seen are all there are, if the caches were empty, and otherwise as
many as the caches name at the least. -/
theorem seen_entries {size n m : ℕ} (hlog : ChainedLog rt w s es) (hn : n ≤ es.length)
    (htake : (s.file.getD []).take size = (es.take n).flatMap AuditEntry.bytes) (hseen : SeenOk s size)
    (hnames : NamesWithin s size) :
    (Cold s → n = es.length) ∧ (s.cachedPrevSeq = some (.ofNat m) → m ≤ n) := by
  have hcount := count_newlines (es.take n)
  rw [List.length_take_of_le hn] at hcount
  constructor
  · intro hcold
    have hholds : s.file.getD [] = es.flatMap AuditEntry.bytes := hlog.holds
    have hall := count_newlines es
    rw [hseen.cold hcold, List.take_length, hholds] at htake
    rw [htake] at hall
    omega
  · intro hseq
    obtain ⟨k, hk, heq⟩ := hnames _ hseq
    rw [htake, hcount] at hk
    rwa [ofNat_inj heq]

/-- Where the caches are empty or name the last entry, the call leaves them naming it. -/
theorem recover_warm {size n : ℕ} (hlog : ChainedLog rt w s es) (hn : n ≤ es.length)
    (htake : (s.file.getD []).take size = (es.take n).flatMap AuditEntry.bytes) (hseen : SeenOk s size)
    (hnames : NamesWithin s size) (hcaches : Cold s ∨ Warm s es) :
    ChainedLog rt w (s.recover (hmacBefore es n) (.ofNat n)) es ∧
      Warm (s.recover (hmacBefore es n) (.ofNat n)) es := by
  refine ⟨⟨hlog.holds, hlog.chained⟩, ?_⟩
  have hseenAll := seen_entries (m := es.length) hlog hn htake hseen hnames
  have hall : n = es.length := by
    rcases hcaches with hcold | hwarm
    · exact hseenAll.1 hcold
    · exact Nat.le_antisymm hn (hseenAll.2 hwarm.2)
  have hwarm := recover_take s hn
  rw [hall, List.take_length] at hwarm
  rwa [hall]

theorem IdleLog.recover {size n : ℕ} (h : IdleLog rt w es s done)
    (hn : n ≤ (es ++ entriesOf done).length)
    (htake : (s.file.getD []).take size = ((es ++ entriesOf done).take n).flatMap AuditEntry.bytes)
    (hseen : SeenOk s size) (hnames : NamesWithin s size) :
    IdleLog rt w es (s.recover (hmacBefore (es ++ entriesOf done) n) (.ofNat n)) done := by
  obtain ⟨hlog, hcaches, hr⟩ := h
  obtain ⟨hlog', hwarm⟩ := recover_warm hlog hn htake hseen hnames hcaches
  exact ⟨hlog', .inr hwarm, hr⟩

/-- The append in flight goes on, with the caches filled for it where they were empty. -/
theorem flight_recover {size n : ℕ} {log : List AuditEntry}
    (h : InFlight rt w s es c ∨ RaceFlight rt w s es c) (hentries : log = es ++ c.written?.toList)
    (hn : n ≤ log.length) (htake : (s.file.getD []).take size = (log.take n).flatMap AuditEntry.bytes)
    (hseen : SeenOk s size) (hnames : NamesWithin s size) :
    InFlight rt w (s.recover (hmacBefore log n) (.ofNat n)) es c ∨
      RaceFlight rt w (s.recover (hmacBefore log n) (.ofNat n)) es c := by
  obtain ⟨a, phase⟩ := c
  have hwaits (hwritten : AppendCall.written? ⟨a, phase⟩ = none) : log = es := by
    rw [hentries, hwritten]
    exact List.append_nil _
  have hfill (hwritten : AppendCall.written? ⟨a, phase⟩ = none) (hlog : ChainedLog rt w s es)
      (hcaches : Cold s ∨ Warm s es) :
      ChainedLog rt w (s.recover (hmacBefore log n) (.ofNat n)) es ∧
        Warm (s.recover (hmacBefore log n) (.ofNat n)) es := by
    obtain rfl := hwaits hwritten
    exact recover_warm hlog hn htake hseen hnames hcaches
  cases phase with
  | stating =>
    rcases h with ⟨hlog, hcold⟩ | ⟨hlog, hwarm⟩
    · exact .inr (hfill rfl hlog (.inl hcold))
    · exact .inr (hfill rfl hlog (.inr hwarm))
  | opening size' =>
    rcases h with ⟨hlog, hcold, hne, hsize⟩ | ⟨hlog, hwarm, hne, hsize⟩
    · obtain ⟨hlog', hwarm'⟩ := hfill rfl hlog (.inl hcold)
      exact .inr ⟨hlog', hwarm', hne, hsize⟩
    · obtain ⟨hlog', hwarm'⟩ := hfill rfl hlog (.inr hwarm)
      exact .inr ⟨hlog', hwarm', hne, hsize⟩
  | reading size' =>
    rcases h with ⟨hlog, hcold, hne, hsize⟩ | ⟨hlog, hwarm, hne, hsize⟩
    · obtain ⟨hlog', hwarm'⟩ := hfill rfl hlog (.inl hcold)
      exact .inr ⟨hlog', hwarm', hne, hsize⟩
    · obtain ⟨hlog', hwarm'⟩ := hfill rfl hlog (.inr hwarm)
      exact .inr ⟨hlog', hwarm', hne, hsize⟩
  | closing failed =>
    cases failed with
    | none =>
      rcases h with ⟨hlog, hwarm⟩ | hno
      · exact .inl (hfill rfl hlog (.inr hwarm))
      · exact hno.elim
    | some e =>
      rcases h with ⟨hlog, hcold⟩ | ⟨hlog, hwarm⟩
      · exact .inr (hfill rfl hlog (.inl hcold))
      · exact .inr (hfill rfl hlog (.inr hwarm))
  | keying prevHmac minus =>
    rcases h with ⟨hlog, hwarm, hrest⟩ | hno
    · obtain ⟨hlog', hwarm'⟩ := hfill rfl hlog (.inr hwarm)
      exact .inl ⟨hlog', hwarm', hrest⟩
    · exact hno.elim
  | makingDir entry line =>
    rcases h with ⟨hlog, hwarm, hrest⟩ | hno
    · obtain ⟨hlog', hwarm'⟩ := hfill rfl hlog (.inr hwarm)
      exact .inl ⟨hlog', hwarm', hrest⟩
    · exact hno.elim
  | appending entry line =>
    rcases h with ⟨hlog, hwarm, hrest⟩ | hno
    · obtain ⟨hlog', hwarm'⟩ := hfill rfl hlog (.inr hwarm)
      exact .inl ⟨hlog', hwarm', hrest⟩
    · exact hno.elim
  | written entry =>
    obtain rfl : log = es ++ [entry] := hentries
    rcases h with ⟨hlog, hwarm, hrec⟩ | ⟨hlog, hwarm, hrec⟩
    · -- the call may have seen the line just written, or all lines before it
      have hle := (seen_entries hlog hn htake hseen hnames).2 hwarm.2
      rw [List.length_append, List.length_singleton] at hn
      rcases Nat.eq_or_lt_of_le hle with heq | hlt
      · have htaken := recover_take s (show n ≤ (es ++ [entry]).length by simp; omega)
        rw [← heq, List.take_left] at htaken
        exact .inl ⟨⟨hlog.holds, hlog.chained⟩, heq ▸ htaken, hrec⟩
      -- it has seen the new line: the caches hold what the append is about to put there
      · obtain rfl : n = es.length+1 := by omega
        have htaken := recover_take s (show es.length+1 ≤ (es ++ [entry]).length by simp)
        rw [List.take_of_length_le (by simp)] at htaken
        exact .inr ⟨⟨hlog.holds, hlog.chained⟩, htaken, hrec⟩
    · obtain ⟨hlog', hwarm'⟩ := recover_warm hlog hn htake hseen hnames (.inr hwarm)
      exact .inr ⟨hlog', hwarm', hrec⟩
  | queued => exact (h.elim id id).elim
  | resolved entry => exact (h.elim id id).elim
  | rejected err => exact (h.elim id id).elim

/-! ### Whole runs -/

/-- The log and the caches between any two steps. -/
theorem race_log {calls : List AppendCall} (h : (auditMutex rt w).Serial (raceInvariant rt w es) (s, calls)) :
    ChainedLog rt w s (es ++ entriesOf calls) ∧ CachesName s (es ++ entriesOf calls) := by
  have hnames {log : List AuditEntry} (n : ℕ) (hn : n ≤ log.length) (hwarm : Warm s (log.take n)) :
      CachesName s log := by
    refine .inr ⟨n, hn, hwarm.1, ?_⟩
    rw [hwarm.2, List.length_take_of_le hn]
  have hfull {log : List AuditEntry} (hwarm : Warm s log) : CachesName s log :=
    hnames log.length le_rfl (by rwa [List.take_length])
  generalize hst : (s, calls) = st at h
  cases h with
  | idle _ done rest hd hr hidle =>
    obtain ⟨rfl, rfl⟩ := Prod.mk.inj hst
    obtain ⟨hlog, hcaches, -⟩ := hidle
    rw [entriesOf, List.filterMap_append, ← entriesOf, ← entriesOf, @entriesOf_queued rt w rest hr,
      List.append_nil]
    exact ⟨hlog, hcaches.elim .inl hfull⟩
  | busy _ done rest c hd hr hq hs hbusy =>
    obtain ⟨rfl, rfl⟩ := Prod.mk.inj hst
    obtain ⟨hflight, -, -⟩ := hbusy
    rw [@entriesOf_busy rt w done rest c hr, ← List.append_assoc]
    generalize es ++ entriesOf done = log at hflight ⊢
    obtain ⟨a, phase⟩ := c
    have hwaits {P : Prop} (h : ChainedLog rt w s log ∧ P) (hcaches : Cold s ∨ Warm s log) :
        ChainedLog rt w s (log ++ none.toList) ∧ CachesName s (log ++ none.toList) := by
      rw [Option.toList_none, List.append_nil]
      exact ⟨h.1, hcaches.elim .inl hfull⟩
    cases phase with
    | stating => exact hflight.elim (fun h => hwaits h (.inl h.2)) fun h => hwaits h (.inr h.2)
    | opening size => exact hflight.elim (fun h => hwaits h (.inl h.2.1)) fun h => hwaits h (.inr h.2.1)
    | reading size => exact hflight.elim (fun h => hwaits h (.inl h.2.1)) fun h => hwaits h (.inr h.2.1)
    | closing failed =>
      cases failed with
      | none => exact hflight.elim (fun h => hwaits h (.inr h.2)) False.elim
      | some e => exact hflight.elim (fun h => hwaits h (.inl h.2)) fun h => hwaits h (.inr h.2)
    | keying prevHmac minus => exact hflight.elim (fun h => hwaits h (.inr h.2.1)) False.elim
    | makingDir entry line => exact hflight.elim (fun h => hwaits h (.inr h.2.1)) False.elim
    | appending entry line => exact hflight.elim (fun h => hwaits h (.inr h.2.1)) False.elim
    | written entry =>
      rcases hflight with ⟨hlog, hwarm, -⟩ | ⟨hlog, hwarm, -⟩
      · refine ⟨hlog, hnames log.length (by simp) ?_⟩
        change Warm s ((log ++ [entry]).take log.length)
        rwa [List.take_left]
      · exact ⟨hlog, hfull hwarm⟩
    | queued => exact (hflight.elim id id).elim
    | resolved entry => exact (hflight.elim id id).elim
    | rejected err => exact (hflight.elim id id).elim

/-- One step of an append makes the log no shorter, leaves no cache empty where the log grows, and
sets the caches to no earlier entry. -/
structure AppendGrows (s s' : WriterState) : Prop where
  file : ∃ more, s'.file.getD [] = s.file.getD [] ++ more ∧ (Cold s' → Cold s ∧ more = [])
  neverBack : NeverBack s s'

theorem NeverBack.refl (s : WriterState) : NeverBack s s := fun m h => ⟨m, h, le_rfl⟩

theorem NeverBack.of_cold (h : Cold s) : NeverBack s s' := by
  intro m hm
  rw [h.2] at hm
  cases hm

theorem AppendGrows.refl (s : WriterState) : AppendGrows s s :=
  ⟨⟨[], (List.append_nil _).symm, fun h => ⟨h, rfl⟩⟩, .refl s⟩

theorem AppendGrows.recover {m : ℕ} (hmac : JsString)
    (h : Cold s ∨ ∃ k ≤ m, s.cachedPrevSeq = some (.ofNat k)) :
    AppendGrows s (s.recover hmac (.ofNat m)) := by
  refine ⟨⟨[], (List.append_nil _).symm, fun hcold => ?_⟩, ?_⟩
  · have hnone : some hmac = none := hcold.1
    cases hnone
  · rcases h with hcold | ⟨k, hk, hseq⟩
    · exact .of_cold hcold
    · intro j hj
      rw [hseq] at hj
      obtain rfl := ofNat_inj (Option.some.inj hj)
      exact ⟨m, rfl, hk⟩

theorem advance_grows (answer : Answer) (now : Except JsString JsString)
    (h : c.phase = .queued ∨ InFlight rt w s es c ∨ RaceFlight rt w s es c) (ht : c.truthful s answer) :
    AppendGrows s (c.advance rt w answer now s).1 := by
  obtain ⟨a, phase⟩ := c
  obtain ⟨fault, created⟩ := answer
  cases phase with
  | queued =>
    simp only [AppendCall.advance]
    split_ifs <;> exact .refl s
  | stating =>
    have hcaches : ChainedLog rt w s es ∧ (Cold s ∨ Warm s es) := by
      rcases h.resolve_left (by simp) with ⟨hlog, hcold⟩ | ⟨hlog, hwarm⟩
      · exact ⟨hlog, .inl hcold⟩
      · exact ⟨hlog, .inr hwarm⟩
    have hgenesis (hempty : s.file.getD [] = []) : AppendGrows s (s.recover genesisPrevHmac (.ofNat 0)) := by
      refine .recover _ (hcaches.2.imp_right fun hwarm => ⟨0, le_rfl, ?_⟩)
      obtain rfl := hcaches.1.holds.nil_iff.mp hempty
      exact hwarm.2
    simp only [AppendCall.advance]
    cases fault with
    | some e =>
      by_cases he : e.code = some (js "ENOENT")
      · simp only [he, ↓reduceIte]
        exact hgenesis (by rw [ht he]; rfl)
      · simp only [he, ↓reduceIte]
        exact .refl s
    | none =>
      cases hfile : s.file with
      | none =>
        have hgrows := hgenesis (by rw [hfile]; rfl)
        simp only [WriterState.recover, hfile] at hgrows
        exact hgrows
      | some bytes =>
        by_cases hb : bytes.length = 0
        · have hgrows := hgenesis (by rw [hfile]; exact List.eq_nil_of_length_eq_zero hb)
          simp only [WriterState.recover, hfile] at hgrows
          simp only [hb, ↓reduceIte]
          exact hgrows
        · simp only [hb, ↓reduceIte]
          exact .refl s
  | opening size => cases fault <;> exact .refl s
  | reading size =>
    have hcaches : ChainedLog rt w s es ∧ es ≠ [] ∧ size = (s.file.getD []).length ∧
        (Cold s ∨ Warm s es) := by
      rcases h.resolve_left (by simp) with ⟨hlog, hcold, hne, hsize⟩ | ⟨hlog, hwarm, hne, hsize⟩
      · exact ⟨hlog, hne, hsize, .inl hcold⟩
      · exact ⟨hlog, hne, hsize, .inr hwarm⟩
    obtain ⟨hlog, hne, rfl, hcaches⟩ := hcaches
    simp only [AppendCall.advance]
    cases fault with
    | some e => exact .refl s
    | none =>
      rcases recoverFrom_chained w.logPath hne hlog.holds hlog.chained with hok | ⟨message, herr⟩
      · simp only [hok]
        exact .recover _ (hcaches.imp_right fun hwarm => ⟨_, le_rfl, hwarm.2⟩)
      · simp only [herr]
        exact .refl s
  | closing failed => cases fault <;> cases failed <;> exact .refl s
  | keying prevHmac minus => cases fault <;> exact .refl s
  | makingDir entry line => cases fault <;> exact .refl s
  | appending entry line =>
    obtain ⟨hlog, hwarm, -⟩ := (h.resolve_left (by simp)).resolve_right id
    -- an append that writes has recovered, so its caches are filled and stay so
    have hnot (s' : WriterState) (hsame : s'.cachedPrevHmac = s.cachedPrevHmac) : ¬ Cold s' := by
      intro hcold
      have hnone := hsame.symm.trans hcold.1
      rw [hwarm.1] at hnone
      cases hnone
    cases fault with
    | some e =>
      refine ⟨⟨[], ?_, fun hcold => absurd hcold (hnot _ rfl)⟩, .refl s⟩
      simp only [AppendCall.advance, List.append_nil]
      split_ifs <;> rfl
    | none => exact ⟨⟨encodeUtf8 line, rfl, fun hcold => absurd hcold (hnot _ rfl)⟩, .refl s⟩
  -- the caches move on to the number of the new entry, which is no less than what they name
  | written entry =>
    have hnext : ∃ n k, entry.seq = .ofNat n ∧ k ≤ n ∧ s.cachedPrevSeq = some (.ofNat k) := by
      rcases h.resolve_left (by simp) with ⟨hlog, hwarm, -⟩ | ⟨hlog, hwarm, -⟩
      · refine ⟨_, _, (chained_snoc.mp hlog.chained).2.seq, ?_, hwarm.2⟩
        omega
      · refine ⟨_, _, (chained_snoc.mp hlog.chained).2.seq, ?_, hwarm.2⟩
        rw [List.length_append, List.length_singleton]
        omega
    obtain ⟨n, k, hseq, hk, hnames⟩ := hnext
    have hgrows := AppendGrows.recover entry.hmac (.inr ⟨k, hk, hnames⟩)
    rw [← hseq] at hgrows
    exact hgrows
  | resolved entry => exact .refl s
  | rejected err => exact .refl s

theorem step_grows {st st' : WriterState × List AppendCall}
    (h : (auditMutex rt w).Serial (raceInvariant rt w es) st) (hstep : (auditMutex rt w).Step st st') :
    AppendGrows st.1 st'.1 := by
  cases hstep with
  | call s calls c hc => exact .refl s
  | enter s s' before after c c' hc htail hr =>
    obtain ⟨answer, now, ht, rfl, -⟩ := hr
    exact advance_grows answer now (.inl hc.1 : _ ∨ InFlight rt w s es c ∨ RaceFlight rt w s es c) ht
  | resume s s' before after c c' hq hs hr =>
    obtain ⟨answer, now, ht, rfl, -⟩ := hr
    exact advance_grows answer now (.inr (h.running hq hs).1) ht

/-- Between two steps: the appends run one at a time on a chained log, and what the calls of
`getLastHmac` hold is good. -/
structure RaceInv (rt : Runtime) (w : AuditWriter) (es : List AuditEntry) (st : WriterCalls) : Prop where
  appends : (auditMutex rt w).Serial (raceInvariant rt w es) (st.state, st.appends)
  readers : ∀ r ∈ st.readers, ReaderOk st.state r

theorem reader_step {fault : Option ErrnoException} {calls : List AppendCall}
    {before after : List ReaderPhase} {r : ReaderPhase}
    (h : RaceInv rt w es ⟨s, calls, before ++ r :: after⟩) (ht : r.truthful fault s)
    (hmeets : Unstale rt w s r) :
    RaceInv rt w es ⟨(r.advance rt w fault s).1, calls, before ++ (r.advance rt w fault s).2 :: after⟩ ∧
      NeverBack s (r.advance rt w fault s).1 := by
  obtain ⟨hserial, hreaders⟩ := h
  obtain ⟨hlog, hcaches⟩ := race_log hserial
  have hown : ReaderOk s r := hreaders r (by simp)
  have hnext := hown.advance hlog ht
  have hall (s' : WriterState) (hfile : s'.file = s.file) (hcold : Cold s' → Cold s)
      (hserial' : (auditMutex rt w).Serial (raceInvariant rt w es) (s', calls)) :
      RaceInv rt w es ⟨s', calls, before ++ (r.advance rt w fault s).2 :: after⟩ := by
    refine ⟨hserial', fun x hx => ?_⟩
    have hx : ReaderOk s x := by
      rcases List.mem_append.mp hx with hx | hx
      · exact hreaders x (List.mem_append_left _ hx)
      · rcases List.mem_cons.mp hx with rfl | hx
        · exact hnext
        · exact hreaders x (List.mem_append_right _ (List.mem_cons_of_mem _ hx))
    have hsame : s'.file.getD [] = s.file.getD [] ++ [] := by rw [hfile, List.append_nil]
    exact hx.grow hsame fun hc => ⟨hcold hc, rfl⟩
  cases hassigns : r.assigns rt w with
  | none =>
    rw [advance_of_not_assigns fault hassigns]
    exact ⟨hall s rfl id hserial, .refl s⟩
  | some size =>
    obtain ⟨hseen, n, hn, htake, hadvance⟩ := hown.assigns fault hlog hassigns
    have hnames := hmeets size hassigns
    rw [hadvance]
    refine ⟨hall _ rfl (fun hcold => ?_) ?_, ?_⟩
    -- caches that have been filled are not empty
    · have hnone : some (hmacBefore (es ++ entriesOf calls) n) = none := hcold.1
      cases hnone
    · refine hserial.surroundings (fun done rest hcalls hr hidle => ?_) fun done c rest hcalls hr hbusy => ?_
      -- no append is under way
      · have hentries : entriesOf calls = entriesOf done := by
          rw [show calls = done ++ rest from hcalls, entriesOf, List.filterMap_append, ← entriesOf,
            ← entriesOf, @entriesOf_queued rt w rest hr, List.append_nil]
        rw [hentries] at hn htake ⊢
        exact IdleLog.recover hidle hn htake hseen hnames
      -- an append is under way: what it has written counts for the log, and it goes on with the new caches
      · have hentries : es ++ entriesOf calls = es ++ entriesOf done ++ c.written?.toList := by
          rw [show calls = done ++ c :: rest from hcalls, @entriesOf_busy rt w done rest c hr,
            List.append_assoc]
        exact ⟨flight_recover hbusy.1 hentries hn htake hseen hnames, hbusy.2⟩
    · rcases hcaches with hcold | ⟨m, hm, hhmac, hseq⟩
      · exact .of_cold hcold
      · have hle := (seen_entries hlog hn htake hseen hnames).2 hseq
        exact (AppendGrows.recover _ (.inr ⟨m, hle, hseq⟩)).neverBack

theorem NeverBack.trans {s₁ s₂ s₃ : WriterState} (h : NeverBack s₁ s₂) (h' : NeverBack s₂ s₃) :
    NeverBack s₁ s₃ := by
  intro m hm
  obtain ⟨n, hn, hmn⟩ := h m hm
  obtain ⟨k, hk, hnk⟩ := h' n hn
  exact ⟨k, hk, hmn.trans hnk⟩

theorem RaceInv.step {st st' : WriterCalls} (h : RaceInv rt w es st)
    (hstep : WriterStep rt w (Unstale rt w) st st') : RaceInv rt w es st' ∧ NeverBack st.state st'.state := by
  cases hstep with
  | append readers happend =>
    obtain ⟨⟨more, hfile, hcold⟩, hnever⟩ := step_grows h.appends happend
    exact ⟨⟨h.appends.step happend, fun r hr => (h.readers r hr).grow hfile hcold⟩, hnever⟩
  | getLastHmac s calls readers =>
    refine ⟨⟨h.appends, fun r hr => ?_⟩, .refl s⟩
    rcases List.mem_append.mp hr with hr | hr
    · exact h.readers r hr
    · rw [List.mem_singleton.mp hr, getLastHmac]
      split <;> trivial
  | reader fault s calls before after r ht hmeets => exact reader_step h ht hmeets

theorem RaceInv.runs {st st' : WriterCalls} (h : RaceInv rt w es st)
    (hruns : WriterRuns rt w (Unstale rt w) st st') : RaceInv rt w es st' ∧ NeverBack st.state st'.state := by
  induction hruns with
  | refl => exact ⟨h, .refl _⟩
  | tail _ hstep ih =>
    obtain ⟨hinv, hnever⟩ := ih.1.step hstep
    exact ⟨hinv, ih.2.trans hnever⟩

/-- The appends go on as they do alone. -/
theorem writerRuns_appends {meets : WriterState → ReaderPhase → Prop} {s0 : WriterState}
    {st : WriterState × List AppendCall} (readers : List ReaderPhase) (h : (auditMutex rt w).Runs s0 st) :
    WriterRuns rt w meets ⟨s0, [], readers⟩ ⟨st.1, st.2, readers⟩ := by
  induction h with
  | refl => exact .refl
  | tail _ hstep ih => exact ih.tail (.append readers hstep)

end Homelab
