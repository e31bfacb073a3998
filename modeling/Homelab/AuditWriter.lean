import Homelab.CanonicalJson
import Homelab.PromiseMutex
import Homelab.Host

/-! `AuditWriter`: the HMAC-chained, append-only NDJSON audit log. An append is
a sequence of awaits; between two of them its code runs without interruption. -/
namespace Homelab
open Js

inductive AuditEventType
  | discoveryStarted
  | discoveryCompleted
  | consentGranted
  | consentRevoked
  | caInitialized
  | caRotated
  | certSigned
  | certRevoked
  | connectionOpened
  | connectionFailed
  | connectionClosed
  | commandExecuted
  | auditKeyRotated
  | observationCreated
  | observationPromoted
  | observationDedupSuppressed
deriving DecidableEq

def AuditEventType.text : AuditEventType → JsString
  | .discoveryStarted => js "discovery_started"
  | .discoveryCompleted => js "discovery_completed"
  | .consentGranted => js "consent_granted"
  | .consentRevoked => js "consent_revoked"
  | .caInitialized => js "ca_initialized"
  | .caRotated => js "ca_rotated"
  | .certSigned => js "cert_signed"
  | .certRevoked => js "cert_revoked"
  | .connectionOpened => js "connection_opened"
  | .connectionFailed => js "connection_failed"
  | .connectionClosed => js "connection_closed"
  | .commandExecuted => js "command_executed"
  | .auditKeyRotated => js "audit_key_rotated"
  | .observationCreated => js "observation_created"
  | .observationPromoted => js "observation_promoted"
  | .observationDedupSuppressed => js "observation_dedup_suppressed"

/-- An `AuditEntry` without its `hmac`. -/
structure EntryMinus where
  actor : JsString
  event : AuditEventType
  payload : JsValue
  platform : Option JsString
  seq : JsNumber
  timestamp : JsString

structure AuditEntry extends EntryMinus where
  hmac : JsString

/-- `string | null` -/
def nullable : Option JsString → JsValue
  | none => .null
  | some s => .str s

def EntryMinus.fields (e : EntryMinus) : Fields :=
  [(js "actor", .str e.actor), (js "event", .str e.event.text), (js "payload", e.payload),
    (js "platform", nullable e.platform), (js "seq", .num e.seq),
    (js "timestamp", .str e.timestamp)]

/-- `{ ...minus, hmac }` -/
def AuditEntry.fields (e : AuditEntry) : Fields :=
  e.toEntryMinus.fields ++ [(js "hmac", .str e.hmac)]

def genesisPrevHmac : JsString := List.replicate 64 0x30

def tailChunkBytes : ℕ := 4096

inductive AppendError
  | auditWriteError (code message : JsString)
  | thrown (message : JsString)

/-- What `node:crypto` and the engine supply: the hex HMAC of a text under a key,
and the message of the `SyntaxError` for a text that is not JSON. -/
structure Runtime where
  hmacSha256 : Bytes → JsString → JsString
  syntaxMessage : JsString → JsString

/-- An `AuditWriter`, with the key that its key store holds. -/
structure AuditWriter where
  logPath : JsString
  defaultActor : JsString
  key : Bytes

/-- The log file and the writer's two caches. -/
structure WriterState where
  file : Option Bytes
  cachedPrevHmac : Option JsString
  cachedPrevSeq : Option JsNumber

/-- A new writer on a log file. -/
def WriterState.fresh (file : Option Bytes) : WriterState := ⟨file, none, none⟩

/-! ### `recoverState` -/

/-- `text.slice(text.lastIndexOf('\n') + 1)` -/
def lastLine (text : JsString) : JsString := (text.reverse.takeWhile (· != 0x0A)).reverse

/-- The bytes that `recoverState` reads from a file of the size it has seen. -/
def readTail (file : Bytes) (size : ℕ) : Bytes :=
  let chunkSize := min tailChunkBytes size
  (file.drop (size-chunkSize)).take chunkSize

/-- `recoverState` from the bytes it has read; the errors carry no `code`. -/
def recoverFrom (rt : Runtime) (logPath : JsString) (buf : Bytes) :
    Except ErrnoException (JsString × JsNumber) :=
  let text := decodeUtf8 buf
  if text.getLast? = some 0x0A then
    let line := lastLine text.dropLast
    match jsonParse line with
    | none => .error ⟨none, js "audit log " ++ logPath ++ js " last line is not valid JSON: " ++
        rt.syntaxMessage line⟩
    | some parsed =>
      match parsed.get? (js "hmac"), parsed.get? (js "seq") with
      | some (.str hmac), some (.num seq) => .ok (hmac, seq)
      | none, _ => .error ⟨none, js "Cannot read properties of null (reading 'hmac')"⟩
      | _, _ => .error ⟨none, js "audit log " ++ logPath ++
          js " last line is missing seq/hmac fields"⟩
  else .error ⟨none, js "audit log " ++ logPath ++
    js " last line lacks trailing newline; refusing to recover state"⟩

/-! ### `append` -/

/-- The arguments of `append`; `platform` may be `undefined`, `null` or an id. -/
structure AppendArgs where
  event : AuditEventType
  payload : JsValue
  actor : Option JsString
  platform : Option (Option JsString)

/-- What an append awaits. -/
inductive AppendPhase
  | queued
  | stating
  | opening (size : ℕ)
  | reading (size : ℕ)
  | closing (failed : Option ErrnoException)
  | keying (prevHmac : JsString) (minus : EntryMinus)
  | makingDir (entry : AuditEntry) (line : JsString)
  | appending (entry : AuditEntry) (line : JsString)
  | written (entry : AuditEntry)
  | resolved (entry : AuditEntry)
  | rejected (err : AppendError)

structure AppendCall where
  args : AppendArgs
  phase : AppendPhase

def AppendCall.settled (c : AppendCall) : Prop :=
  match c.phase with
  | .resolved _ => True
  | .rejected _ => True
  | _ => False

/-- The entry whose line an append has put into the file. -/
def AppendCall.written? (c : AppendCall) : Option AuditEntry :=
  match c.phase with
  | .written e => some e
  | .resolved e => some e
  | _ => none

def recoverFailed (w : AuditWriter) (e : ErrnoException) : AppendPhase :=
  .rejected (.auditWriteError (e.code.getD (js "RECOVER_FAILED"))
    (js "failed to recover audit state from " ++ w.logPath ++ js ": " ++ e.message))

def writeFailed (w : AuditWriter) (e : ErrnoException) : AppendPhase :=
  .rejected (.auditWriteError (e.code.getD (js "WRITE_FAILED"))
    (js "failed to append audit entry to " ++ w.logPath ++ js ": " ++ e.message))

/-- From the recovered state to the call of `getKey`; `now` is what
`this.now().toISOString()` returns or throws. -/
def prepare (w : AuditWriter) (now : Except JsString JsString) (s : WriterState) (a : AppendArgs) :
    AppendPhase :=
  match now with
  | .error message => .rejected (.thrown message)
  | .ok timestamp =>
    .keying (s.cachedPrevHmac.getD genesisPrevHmac)
      { actor := a.actor.getD w.defaultActor
        event := a.event
        payload := a.payload
        platform := a.platform.getD none
        seq := (s.cachedPrevSeq.getD (.ofNat 0)).add (.ofNat 1)
        timestamp }

/-- From the key to the call of `mkdir`. -/
def sign (rt : Runtime) (w : AuditWriter) (prevHmac : JsString) (minus : EntryMinus) : AppendPhase :=
  match canonicalJson (.obj minus.fields) with
  | .error message => .rejected (.thrown message)
  | .ok text =>
    let entry : AuditEntry := { minus with hmac := rt.hmacSha256 w.key (prevHmac ++ text) }
    match stringify (.obj entry.fields) with
    | .error message => .rejected (.thrown message)
    | .ok json => .makingDir entry (json.getD (js "undefined") ++ [0x0A])

/-- How an awaited operation ended. An `appendFile` that fails writes nothing, but
it may have `created` the file. -/
structure Answer where
  fault : Option ErrnoException
  created : Bool

/-- The code of `append` up to its next await, given how the awaited operation ended. -/
def AppendCall.advance (rt : Runtime) (w : AuditWriter) (answer : Answer)
    (now : Except JsString JsString) (s : WriterState) (c : AppendCall) :
    WriterState × AppendPhase :=
  match c.phase with
  | .queued =>
    if s.cachedPrevHmac.isNone ∨ s.cachedPrevSeq.isNone then (s, .stating)
    else (s, prepare w now s c.args)
  | .stating =>
    let genesis := { s with cachedPrevHmac := some genesisPrevHmac, cachedPrevSeq := some (.ofNat 0) }
    match answer.fault, s.file with
    | some e, _ =>
      if e.code = some (js "ENOENT") then (genesis, prepare w now genesis c.args)
      else (s, recoverFailed w e)
    | none, none => (genesis, prepare w now genesis c.args)
    | none, some bytes =>
      if bytes.length = 0 then (genesis, prepare w now genesis c.args)
      else (s, .opening bytes.length)
  | .opening size =>
    match answer.fault with
    | some e => (s, recoverFailed w e)
    | none => (s, .reading size)
  | .reading size =>
    match answer.fault with
    | some e => (s, .closing (some e))
    | none =>
      match recoverFrom rt w.logPath (readTail (s.file.getD []) size) with
      | .error e => (s, .closing (some e))
      | .ok (hmac, seq) =>
        ({ s with cachedPrevHmac := some hmac, cachedPrevSeq := some seq }, .closing none)
  | .closing failed =>
    match answer.fault, failed with
    | some e, _ => (s, recoverFailed w e)
    | none, some e => (s, recoverFailed w e)
    | none, none => (s, prepare w now s c.args)
  | .keying prevHmac minus =>
    match answer.fault with
    | some e => (s, .rejected (.thrown e.message))
    | none => (s, sign rt w prevHmac minus)
  | .makingDir entry line =>
    match answer.fault with
    | some e => (s, writeFailed w e)
    | none => (s, .appending entry line)
  | .appending entry line =>
    match answer.fault with
    | some e =>
      ({ s with file := if answer.created then some (s.file.getD []) else s.file }, writeFailed w e)
    | none => ({ s with file := some (s.file.getD [] ++ encodeUtf8 line) }, .written entry)
  | .written entry =>
    ({ s with cachedPrevHmac := some entry.hmac, cachedPrevSeq := some entry.seq }, .resolved entry)
  | .resolved _ => (s, c.phase)
  | .rejected _ => (s, c.phase)

/-- `stat` reports a missing file only when the file is missing. -/
def AppendCall.truthful (s : WriterState) (c : AppendCall) (answer : Answer) : Prop :=
  match c.phase, answer.fault with
  | .stating, some e => e.code = some (js "ENOENT") → s.file = none
  | _, _ => True

theorem AppendCall.queued_not_settled {c : AppendCall}
    (h : c.phase = .queued ∧ c.args.payload.isJson = true) : ¬ c.settled := by
  simp only [AppendCall.settled, h.1, not_false_eq_true]

/-- The appends of one writer, with JSON payloads, under any faults and clock. -/
def auditMutex (rt : Runtime) (w : AuditWriter) : PromiseMutex WriterState AppendCall where
  queued c := c.phase = .queued ∧ c.args.payload.isJson = true
  settled := AppendCall.settled
  resume s c s' c' := ∃ answer now, c.truthful s answer ∧
    s' = (c.advance rt w answer now s).1 ∧
    c' = { c with phase := (c.advance rt w answer now s).2 }
  not_settled _ hq := AppendCall.queued_not_settled hq

end Homelab
