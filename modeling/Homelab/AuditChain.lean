import Homelab.AuditVerify

/-! Whole runs of one `AuditWriter`: whatever the interleaving and the faults, the
file is a chain with one line for each append that has written. -/
namespace Homelab
open Js

variable {rt : Runtime} {w : AuditWriter}

/-- The entries that the calls have put into the file, in the order of the calls. -/
def entriesOf (calls : List AppendCall) : List AuditEntry := calls.filterMap AppendCall.written?

theorem entriesOf_snoc (done : List AppendCall) (c : AppendCall) :
    entriesOf (done ++ [c]) = entriesOf done ++ c.written?.toList := by
  rw [entriesOf, List.filterMap_append]
  cases h : c.written? <;> simp [entriesOf, h]

/-- The entry has the arguments of the append that wrote it. -/
structure Records (w : AuditWriter) (a : AppendArgs) (minus : EntryMinus) : Prop where
  event : minus.event = a.event
  payload : minus.payload = a.payload
  actor : minus.actor = a.actor.getD w.defaultActor
  platform : minus.platform = a.platform.getD none

/-- The file holds a chain of entries. -/
structure ChainedLog (rt : Runtime) (w : AuditWriter) (s : WriterState) (es : List AuditEntry) :
    Prop where
  holds : Holds s.file es
  chained : Chained rt w.key genesisPrevHmac 0 es

def Cold (s : WriterState) : Prop := s.cachedPrevHmac = none ∧ s.cachedPrevSeq = none

/-- The caches name the last entry. -/
def Warm (s : WriterState) (es : List AuditEntry) : Prop :=
  s.cachedPrevHmac = some (lastHmac genesisPrevHmac es) ∧ s.cachedPrevSeq = some (.ofNat es.length)

/-- What is known of the log while an append waits. -/
def InFlight (rt : Runtime) (w : AuditWriter) (s : WriterState) (es : List AuditEntry)
    (c : AppendCall) : Prop :=
  match c.phase with
  | .stating => ChainedLog rt w s es ∧ Cold s
  | .opening size => ChainedLog rt w s es ∧ Cold s ∧ es ≠ [] ∧ size = (s.file.getD []).length
  | .reading size => ChainedLog rt w s es ∧ Cold s ∧ es ≠ [] ∧ size = (s.file.getD []).length
  | .closing none => ChainedLog rt w s es ∧ Warm s es
  | .closing (some _) => ChainedLog rt w s es ∧ Cold s
  | .keying prevHmac minus => ChainedLog rt w s es ∧ Warm s es ∧
      prevHmac = lastHmac genesisPrevHmac es ∧ minus.seq = .ofNat (es.length+1) ∧
      Records w c.args minus
  | .makingDir entry line => ChainedLog rt w s es ∧ Warm s es ∧
      Follows rt w.key (lastHmac genesisPrevHmac es) es.length entry ∧
      line = entry.text ++ [0x0A] ∧ Records w c.args entry.toEntryMinus
  | .appending entry line => ChainedLog rt w s es ∧ Warm s es ∧
      Follows rt w.key (lastHmac genesisPrevHmac es) es.length entry ∧
      line = entry.text ++ [0x0A] ∧ Records w c.args entry.toEntryMinus
  | .written entry => ChainedLog rt w s (es ++ [entry]) ∧ Warm s es ∧
      Records w c.args entry.toEntryMinus
  | .queued => False
  | .resolved _ => False
  | .rejected _ => False

/-- Every settled call's entry records its call. -/
def AllRecord (w : AuditWriter) (calls : List AppendCall) : Prop :=
  ∀ c ∈ calls, ∀ e, c.written? = some e → Records w c.args e.toEntryMinus

/-- The log between two appends of a writer that found the entries `es`. -/
def IdleLog (rt : Runtime) (w : AuditWriter) (es : List AuditEntry) (s : WriterState)
    (done : List AppendCall) : Prop :=
  ChainedLog rt w s (es ++ entriesOf done) ∧ (Cold s ∨ Warm s (es ++ entriesOf done)) ∧
    AllRecord w done

def BusyLog (rt : Runtime) (w : AuditWriter) (es : List AuditEntry) (s : WriterState)
    (done : List AppendCall) (c : AppendCall) : Prop :=
  InFlight rt w s (es ++ entriesOf done) c ∧ c.args.payload.isJson = true ∧ AllRecord w done

/-- What an await may lead to: the append has settled, or it waits again. -/
def Progress (rt : Runtime) (w : AuditWriter) (es : List AuditEntry) (s : WriterState)
    (done : List AppendCall) (c : AppendCall) : Prop :=
  (c.settled ∧ IdleLog rt w es s (done ++ [c])) ∨
    (¬ (c.phase = .queued ∧ c.args.payload.isJson = true) ∧ ¬ c.settled ∧ BusyLog rt w es s done c)

section steps

variable {es : List AuditEntry} {s : WriterState} {done : List AppendCall} {a : AppendArgs}

theorem Progress.of_inFlight {phase : AppendPhase} (hp : a.payload.isJson = true)
    (hr : AllRecord w done) (h : InFlight rt w s (es ++ entriesOf done) ⟨a, phase⟩) :
    Progress rt w es s done ⟨a, phase⟩ := by
  refine Or.inr ⟨?_, ?_, h, hp, hr⟩
  · rintro ⟨hq, _⟩
    change phase = .queued at hq
    subst hq
    exact h
  · intro hs
    cases phase <;> first | exact hs | exact h

/-- A rejected append leaves the log, and is not in it. -/
theorem Progress.of_rejected {err : AppendError} (hr : AllRecord w done)
    (hlog : ChainedLog rt w s (es ++ entriesOf done))
    (hcache : Cold s ∨ Warm s (es ++ entriesOf done)) :
    Progress rt w es s done ⟨a, .rejected err⟩ := by
  have hentries : entriesOf (done ++ [⟨a, .rejected err⟩]) = entriesOf done := by
    rw [entriesOf_snoc]
    exact List.append_nil _
  refine Or.inl ⟨trivial, ?_⟩
  rw [IdleLog, hentries]
  refine ⟨hlog, hcache, fun c hc e he => ?_⟩
  rcases List.mem_append.mp hc with hc | hc
  · exact hr c hc e he
  · rw [List.mem_singleton.mp hc] at he
    cases he

/-- A warm writer prepares an entry that is next in the chain. -/
theorem Progress.of_prepare (now : Except JsString JsString) (hp : a.payload.isJson = true)
    (hr : AllRecord w done) (hlog : ChainedLog rt w s (es ++ entriesOf done))
    (hwarm : Warm s (es ++ entriesOf done)) :
    Progress rt w es s done ⟨a, prepare w now s a⟩ := by
  cases now with
  | error message => exact .of_rejected hr hlog (Or.inr hwarm)
  | ok timestamp =>
    apply Progress.of_inFlight hp hr
    refine ⟨hlog, hwarm, ?_, ?_, ⟨rfl, rfl, rfl, rfl⟩⟩
    · rw [hwarm.1]
      rfl
    · rw [hwarm.2]
      exact JsNumber.ofNat_add _ 1

/-- Signing a JSON entry cannot fail: the entry is chained and its line is its text. -/
theorem sign_isJson (rt : Runtime) (w : AuditWriter) (minus : EntryMinus) (prevHmac : JsString)
    (hp : minus.payload.isJson = true)
    (hs : minus.seq.isFinite = true) :
    ∃ entry : AuditEntry, sign rt w prevHmac minus = .makingDir entry (entry.text ++ [0x0A]) ∧
      entry.toEntryMinus = minus ∧
      ∃ text, canonicalJson (.obj minus.fields) = .ok text ∧
        entry.hmac = rt.hmacSha256 w.key (prevHmac ++ text) := by
  obtain ⟨text, htext⟩ := encode_of_isJson _ (EntryMinus.isJson hp hs)
  change canonicalJson _ = _ at htext
  have hstringify (hmac : JsString) := stringify_of_isJson
    (AuditEntry.isJson (e := { minus with hmac }) hp hs)
  refine ⟨{ minus with hmac := rt.hmacSha256 w.key (prevHmac ++ text) }, ?_, rfl, text, htext, rfl⟩
  simp only [sign, htext, hstringify, Option.getD_some]
  rfl

/-- The signed entry extends the chain, and its line is what will be written. -/
theorem Progress.of_sign {prevHmac : JsString} {minus : EntryMinus} (hp : a.payload.isJson = true)
    (hr : AllRecord w done) (h : InFlight rt w s (es ++ entriesOf done) ⟨a, .keying prevHmac minus⟩) :
    Progress rt w es s done ⟨a, sign rt w prevHmac minus⟩ := by
  obtain ⟨hlog, hwarm, rfl, hseq, hrec⟩ := h
  have hpayload : minus.payload.isJson = true := by rw [hrec.payload, hp]
  obtain ⟨entry, hsign, rfl, hhmac⟩ := sign_isJson rt w minus
    (lastHmac genesisPrevHmac (es ++ entriesOf done)) hpayload (by rw [hseq]; rfl)
  rw [hsign]
  exact .of_inFlight hp hr ⟨hlog, hwarm, ⟨hpayload, hseq, hhmac⟩, rfl, hrec⟩

/-- `recoverState` on a chained log finds its last entry or refuses it. -/
theorem recoverFrom_chained {file : Bytes} (logPath : JsString) {es : List AuditEntry}
    (hne : es ≠ []) (hfile : file = es.flatMap AuditEntry.bytes)
    (h : Chained rt w.key genesisPrevHmac 0 es) :
    recoverFrom rt logPath (readTail file file.length) =
        .ok (lastHmac genesisPrevHmac es, .ofNat es.length) ∨
      ∃ message, recoverFrom rt logPath (readTail file file.length) = .error ⟨none, message⟩ := by
  obtain ⟨init, e, rfl⟩ := (List.eq_nil_or_concat es).resolve_left hne
  rw [List.concat_eq_append] at *
  obtain ⟨_, hlast⟩ := chained_snoc.mp h
  rw [Nat.zero_add] at hlast
  rw [List.flatMap_append, List.flatMap_singleton] at hfile
  subst hfile
  rcases Nat.lt_or_ge tailChunkBytes e.bytes.length with hlong | hfits
  · exact Or.inr (recoverFrom_exceeds rt logPath init e hlong)
  · refine Or.inl ?_
    rw [recoverFrom_fits rt logPath init e _ hlast.payload hlast.seq hfits, hlast.seq,
      lastHmac_snoc, List.length_append]
    rfl

/-- A writer that finds no line in the file starts from the genesis values. -/
theorem warm_genesis (hlog : ChainedLog rt w s es) (hempty : s.file.getD [] = []) :
    let s' := { s with cachedPrevHmac := some genesisPrevHmac, cachedPrevSeq := some (.ofNat 0) }
    ChainedLog rt w s' es ∧ Warm s' es := by
  obtain rfl := hlog.holds.nil_iff.mp hempty
  exact ⟨⟨hlog.holds, hlog.chained⟩, rfl, rfl⟩

theorem advance_queued (answer : Answer) (now : Except JsString JsString)
    (h : IdleLog rt w es s done) (hp : a.payload.isJson = true) :
    Progress rt w es (AppendCall.advance rt w answer now s ⟨a, .queued⟩).1 done
      ⟨a, (AppendCall.advance rt w answer now s ⟨a, .queued⟩).2⟩ := by
  obtain ⟨hlog, hcache, hr⟩ := h
  simp only [AppendCall.advance]
  rcases hcache with hcold | hwarm
  · rw [if_pos (Or.inl (by rw [hcold.1]; rfl))]
    exact .of_inFlight hp hr ⟨hlog, hcold⟩
  · rw [if_neg (by rw [hwarm.1, hwarm.2]; simp)]
    exact .of_prepare now hp hr hlog hwarm

theorem advance_stating (answer : Answer) (now : Except JsString JsString)
    (h : BusyLog rt w es s done ⟨a, .stating⟩)
    (ht : AppendCall.truthful s ⟨a, .stating⟩ answer) :
    Progress rt w es (AppendCall.advance rt w answer now s ⟨a, .stating⟩).1 done
      ⟨a, (AppendCall.advance rt w answer now s ⟨a, .stating⟩).2⟩ := by
  obtain ⟨⟨hlog, hcold⟩, hp, hr⟩ := h
  have hgenesis (hempty : s.file.getD [] = []) := warm_genesis hlog hempty
  obtain ⟨fault, created⟩ := answer
  simp only [AppendCall.advance]
  cases fault with
  | some e =>
    by_cases he : e.code = some (js "ENOENT")
    · obtain ⟨hlog', hwarm⟩ := hgenesis (by rw [ht he]; rfl)
      simp only [he, ↓reduceIte]
      exact .of_prepare now hp hr hlog' hwarm
    · simp only [he, ↓reduceIte]
      exact .of_rejected hr hlog (Or.inl hcold)
  | none =>
    obtain ⟨file, cachedHmac, cachedSeq⟩ := s
    cases file with
    | none =>
      obtain ⟨hlog', hwarm⟩ := hgenesis rfl
      exact .of_prepare now hp hr hlog' hwarm
    | some bytes =>
      by_cases hb : bytes.length = 0
      · obtain ⟨hlog', hwarm⟩ := hgenesis (List.eq_nil_of_length_eq_zero hb)
        simp only [hb, ↓reduceIte]
        exact .of_prepare now hp hr hlog' hwarm
      · simp only [hb, ↓reduceIte]
        refine .of_inFlight hp hr ⟨hlog, hcold, ?_, rfl⟩
        intro hnil
        exact hb (by rw [show bytes = [] from hlog.holds.nil_iff.mpr hnil]; rfl)

theorem advance_reading (size : ℕ) (answer : Answer) (now : Except JsString JsString)
    (h : BusyLog rt w es s done ⟨a, .reading size⟩) :
    Progress rt w es (AppendCall.advance rt w answer now s ⟨a, .reading size⟩).1 done
      ⟨a, (AppendCall.advance rt w answer now s ⟨a, .reading size⟩).2⟩ := by
  obtain ⟨⟨hlog, hcold, hne, rfl⟩, hp, hr⟩ := h
  obtain ⟨fault, created⟩ := answer
  simp only [AppendCall.advance]
  cases fault with
  | some e => exact .of_inFlight hp hr ⟨hlog, hcold⟩
  | none =>
    rcases recoverFrom_chained w.logPath hne hlog.holds hlog.chained with hok | ⟨message, herr⟩
    · simp only [hok]
      exact .of_inFlight hp hr ⟨⟨hlog.holds, hlog.chained⟩, rfl, rfl⟩
    · simp only [herr]
      exact .of_inFlight hp hr ⟨hlog, hcold⟩

/-- An append that has written extends the chain by its entry. -/
theorem advance_appending (entry : AuditEntry) (line : JsString) (answer : Answer)
    (now : Except JsString JsString) (h : BusyLog rt w es s done ⟨a, .appending entry line⟩) :
    Progress rt w es (AppendCall.advance rt w answer now s ⟨a, .appending entry line⟩).1 done
      ⟨a, (AppendCall.advance rt w answer now s ⟨a, .appending entry line⟩).2⟩ := by
  obtain ⟨⟨hlog, hwarm, hfollows, rfl, hrec⟩, hp, hr⟩ := h
  obtain ⟨fault, created⟩ := answer
  simp only [AppendCall.advance]
  cases fault with
  | some e =>
    have hholds : Holds (if created = true then some (s.file.getD []) else s.file)
        (es ++ entriesOf done) := by
      split_ifs
      · exact hlog.holds
      · exact hlog.holds
    exact .of_rejected hr ⟨hholds, hlog.chained⟩ (Or.inr hwarm)
  | none =>
    refine .of_inFlight hp hr ⟨⟨hlog.holds.append entry, chained_snoc.mpr ⟨hlog.chained, ?_⟩⟩,
      hwarm, hrec⟩
    rwa [Nat.zero_add]

/-- The caches of a settled append name the entry it has written. -/
theorem advance_written (entry : AuditEntry) (answer : Answer) (now : Except JsString JsString)
    (h : BusyLog rt w es s done ⟨a, .written entry⟩) :
    Progress rt w es (AppendCall.advance rt w answer now s ⟨a, .written entry⟩).1 done
      ⟨a, (AppendCall.advance rt w answer now s ⟨a, .written entry⟩).2⟩ := by
  obtain ⟨⟨hlog, hwarm, hrec⟩, hp, hr⟩ := h
  have hseq := (chained_snoc.mp hlog.chained).2.seq
  have hentries : es ++ entriesOf (done ++ [⟨a, .resolved entry⟩]) =
      es ++ entriesOf done ++ [entry] := by
    rw [entriesOf_snoc, List.append_assoc]
    rfl
  refine Or.inl ⟨trivial, ?_⟩
  simp only [AppendCall.advance]
  rw [IdleLog, hentries]
  refine ⟨⟨hlog.holds, hlog.chained⟩, Or.inr ⟨?_, ?_⟩, fun c hc e he => ?_⟩
  · rw [lastHmac_snoc]
  · change some entry.seq = _
    rw [hseq, Nat.zero_add, ← List.concat_eq_append, List.length_concat]
  · rcases List.mem_append.mp hc with hc | hc
    · exact hr c hc e he
    · obtain rfl := List.mem_singleton.mp hc
      cases he
      exact hrec

theorem advance_busy (answer : Answer) (now : Except JsString JsString) (c : AppendCall)
    (h : BusyLog rt w es s done c) (ht : c.truthful s answer) :
    Progress rt w es (c.advance rt w answer now s).1 done
      { c with phase := (c.advance rt w answer now s).2 } := by
  obtain ⟨a, phase⟩ := c
  cases phase with
  | queued => exact h.1.elim
  | stating => exact advance_stating answer now h ht
  | opening size =>
    obtain ⟨⟨hlog, hcold, hne, hsize⟩, hp, hr⟩ := h
    obtain ⟨_ | e, created⟩ := answer
    · exact .of_inFlight hp hr ⟨hlog, hcold, hne, hsize⟩
    · exact .of_rejected hr hlog (Or.inl hcold)
  | reading size => exact advance_reading size answer now h
  | closing failed =>
    obtain ⟨hlog, hp, hr⟩ := h
    obtain ⟨_ | e, created⟩ := answer
    · cases failed with
      | none => exact .of_prepare now hp hr hlog.1 hlog.2
      | some e => exact .of_rejected hr hlog.1 (Or.inl hlog.2)
    · cases failed with
      | none => exact .of_rejected hr hlog.1 (Or.inr hlog.2)
      | some e' => exact .of_rejected hr hlog.1 (Or.inl hlog.2)
  | keying prevHmac minus =>
    obtain ⟨hkey, hp, hr⟩ := h
    obtain ⟨_ | e, created⟩ := answer
    · exact .of_sign hp hr hkey
    · exact .of_rejected hr hkey.1 (Or.inr hkey.2.1)
  | makingDir entry line =>
    obtain ⟨hmake, hp, hr⟩ := h
    obtain ⟨_ | e, created⟩ := answer
    · exact .of_inFlight hp hr hmake
    · exact .of_rejected hr hmake.1 (Or.inr hmake.2.1)
  | appending entry line => exact advance_appending entry line answer now h
  | written entry => exact advance_written entry answer now h
  | resolved entry => exact h.1.elim
  | rejected err => exact h.1.elim

end steps

/-! ### Whole runs -/

/-- A writer that finds a chained log keeps it chained, one append at a time. -/
def auditInvariant (rt : Runtime) (w : AuditWriter) (es : List AuditEntry) :
    (auditMutex rt w).SerialInvariant where
  Idle := IdleLog rt w es
  Busy := BusyLog rt w es
  enter := by
    rintro s done ⟨a, phase⟩ s' c' hidle ⟨hq, hp⟩ ⟨answer, now, -, rfl, rfl⟩
    change phase = .queued at hq
    subst hq
    exact advance_queued answer now hidle hp
  resume := by
    rintro s done c s' c' hbusy ⟨answer, now, ht, rfl, rfl⟩
    exact advance_busy answer now c hbusy ht

theorem entriesOf_queued {rest : List AppendCall} (h : ∀ c ∈ rest, (auditMutex rt w).queued c) :
    entriesOf rest = [] := by
  apply List.filterMap_eq_nil_iff.mpr
  intro c hc
  simp only [AppendCall.written?, (h c hc).1]

theorem entriesOf_busy {done rest : List AppendCall} {c : AppendCall}
    (h : ∀ b ∈ rest, (auditMutex rt w).queued b) :
    entriesOf (done ++ c :: rest) = entriesOf done ++ c.written?.toList := by
  have hsnoc := entriesOf_snoc done c
  rw [← List.singleton_append, ← List.append_assoc, entriesOf, List.filterMap_append,
    ← entriesOf, ← entriesOf, entriesOf_queued h, List.append_nil, hsnoc]

/-- The log while an append waits, with the line that the append may have written. -/
theorem InFlight.log {es : List AuditEntry} {s : WriterState} {c : AppendCall}
    (h : InFlight rt w s es c) : ChainedLog rt w s (es ++ c.written?.toList) ∧
      ∀ e, c.written? = some e → Records w c.args e.toEntryMinus := by
  obtain ⟨a, phase⟩ := c
  have hnone (hlog : ChainedLog rt w s es) : ChainedLog rt w s (es ++ none.toList) := by
    rwa [Option.toList_none, List.append_nil]
  cases phase with
  | written entry =>
    obtain ⟨hlog, _, hrec⟩ := h
    refine ⟨hlog, fun e he => ?_⟩
    cases he
    exact hrec
  | closing failed => cases failed <;> exact ⟨hnone h.1, fun e he => by cases he⟩
  | stating => exact ⟨hnone h.1, fun e he => by cases he⟩
  | opening size => exact ⟨hnone h.1, fun e he => by cases he⟩
  | reading size => exact ⟨hnone h.1, fun e he => by cases he⟩
  | keying prevHmac minus => exact ⟨hnone h.1, fun e he => by cases he⟩
  | makingDir entry line => exact ⟨hnone h.1, fun e he => by cases he⟩
  | appending entry line => exact ⟨hnone h.1, fun e he => by cases he⟩
  | queued => exact h.elim
  | resolved entry => exact h.elim
  | rejected err => exact h.elim

/-- Every run from a chained log leaves it chained, extended by the entries of its
appends in the order in which they were called. -/
theorem runs_chained {es : List AuditEntry} {s0 s : WriterState} {calls : List AppendCall}
    (h0 : ChainedLog rt w s0 es) (hcold : Cold s0) (h : (auditMutex rt w).Runs s0 (s, calls)) :
    ChainedLog rt w s (es ++ entriesOf calls) ∧ AllRecord w calls := by
  have hinit : IdleLog rt w es s0 [] := by
    refine ⟨?_, Or.inl hcold, fun c hc => absurd hc List.not_mem_nil⟩
    rwa [show entriesOf [] = [] from rfl, List.append_nil]
  have hwaiting {rest : List AppendCall} (hr : ∀ c ∈ rest, (auditMutex rt w).queued c)
      (c : AppendCall) (hc : c ∈ rest) (e : AuditEntry) (he : c.written? = some e) :
      Records w c.args e.toEntryMinus := by
    simp only [AppendCall.written?, (hr c hc).1] at he
    cases he
  have hserial := h.serial (auditInvariant rt w es) hinit
  generalize hst : (s, calls) = st at hserial
  cases hserial with
  | idle s' done rest hd hr hidle =>
    obtain ⟨rfl, rfl⟩ := Prod.mk.inj hst
    obtain ⟨hlog, _, hrec⟩ := hidle
    rw [entriesOf, List.filterMap_append, ← entriesOf, ← entriesOf, entriesOf_queued hr,
      List.append_nil]
    refine ⟨hlog, fun c hc => ?_⟩
    rcases List.mem_append.mp hc with hc | hc
    · exact hrec c hc
    · exact hwaiting hr c hc
  | busy s' done rest c hd hr hq hs hbusy =>
    obtain ⟨rfl, rfl⟩ := Prod.mk.inj hst
    obtain ⟨hflight, _, hrec⟩ := hbusy
    obtain ⟨hlog, hown⟩ := hflight.log
    rw [entriesOf_busy hr, ← List.append_assoc]
    refine ⟨hlog, fun c' hc' => ?_⟩
    rcases List.mem_append.mp hc' with hc' | hc'
    · exact hrec c' hc'
    · rcases List.mem_cons.mp hc' with rfl | hc'
      · exact hown
      · exact hwaiting hr c' hc'

end Homelab
