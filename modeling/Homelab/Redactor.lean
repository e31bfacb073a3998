import Homelab.AuditRestart
import Homelab.Dialogue

/-! The redactor of audit events, the sink that wraps a writer with it, and the writer that the runtime
hands out. -/
namespace Homelab
open Js Dialogue

/-! ### `redactObject` -/

def redactedKeys : List JsString :=
  [js "value", js "secret", js "token", js "password", js "key", js "private_key", js "privateKey",
    js "passphrase", js "client_token", js "role_id", js "secret_id"]

def auditWhitelist : List JsString := [js "refHash", js "credential_ref_hash", js "vault_path", js "vault_field"]

def eventTypeWhitelist : List (JsString × List JsString) :=
  [(js "connect.test", [js "type", js "host", js "transport", js "transport_reason", js "outcome",
      js "latency_ms", js "credential_ref_hash", js "occurred_at", js "error"]),
    (js "autofix.propose", [js "type", js "proposal_id", js "observation_id", js "target_host",
      js "action_class", js "ladder_level", js "occurred_at"]),
    (js "autofix.dry-run", [js "type", js "proposal_id", js "gate_outcome", js "occurred_at"]),
    (js "action.cancelled", [js "type", js "action_id", js "reason", js "occurred_at"]),
    (js "SECRET_LEAK_DETECTED", [js "type", js "field", js "at"])]

def redactedText : JsString := js "<redacted>"

def protoKey : JsString := js "__proto__"

/-- `redacted[key] = value`, for the keys of an object in their order: `__proto__` becomes no property. -/
def assigned (key : JsString) (value : JsValue) : Fields := if key = protoKey then [] else [(key, value)]

mutual
/-- What becomes of a value under a key that is on neither list, and the keys that are redacted in it; an
array is copied. -/
def redactValue : JsValue → JsValue × List JsString
  | .obj fs => (.obj (redactObject fs).1, (redactObject fs).2)
  | v => (v, [])

/-- The redacted fields, and `leakedFields` -/
def redactObject : Fields → Fields × List JsString
  | [] => ([], [])
  | (key, value) :: fs =>
    if key ∈ auditWhitelist then (assigned key value ++ (redactObject fs).1, (redactObject fs).2)
    else if key ∈ redactedKeys then
      (assigned key (.str redactedText) ++ (redactObject fs).1, key :: (redactObject fs).2)
    else (assigned key (redactValue value).1 ++ (redactObject fs).1,
      (redactValue value).2 ++ (redactObject fs).2)
end

/-- The keys that an event of this type may have; all, when the type is not in the table. -/
def allowedKey (event : Fields) (key : JsString) : Bool :=
  match getOwn (js "type") event with
  | .str eventType =>
    match eventTypeWhitelist.lookup eventType with
    | some allowedKeys => key ∈ allowedKeys || key ∈ auditWhitelist
    | none => true
  | _ => true

def redactAuditEvent (event : Fields) : Fields := (redactObject event).1.filter fun f => allowedKey event f.1

/-! ### `installRedactorSink` -/

inductive SinkAsk
  | write (event : JsValue)
  | clock

/-- A write answers what it rejects with, if it does. -/
abbrev SinkReply : SinkAsk → Type
  | .write _ => Option JsValue
  | .clock => JsString

def originalWrite (event : JsValue) : Dialogue SinkReply JsValue Unit :=
  .ask (.write event) fun
    | none => .done ()
    | some thrown => .fail thrown

def leakMarker (field time : JsString) : JsValue :=
  .obj [(js "type", .str (js "SECRET_LEAK_DETECTED")), (js "field", .str field), (js "at", .str time)]

def emitMarkers : List JsString → Dialogue SinkReply JsValue Unit
  | [] => .done ()
  | field :: leaked => do
    let time ← put .clock
    originalWrite (leakMarker field time)
    emitMarkers leaked

/-- The `write` that the sink puts in the place of the writer's own -/
def redactingWrite (event : Fields) : Dialogue SinkReply JsValue Unit := do
  originalWrite (.obj (redactObject event).1)
  emitMarkers (redactObject event).2

/-! ### `assembleRuntime` -/

/-- What `assembleRuntime` makes for the audit log: the writer, which it returns as `audit`, and the
adapter that the sink wraps, which it does not return. -/
structure AuditWiring where
  audit : AuditWriter
  adapter : Fields → Dialogue SinkReply JsValue Unit

def assembleAudit (dataDir actor : JsString) (key : Bytes) : AuditWiring where
  audit := ⟨dataDir ++ js "/audit.log", actor, key⟩
  adapter := redactingWrite

/-- In some run of the writer, on a log that earlier writers may have left, the entry is written for an
append of this event. -/
def AppendsEvent (rt : Runtime) (w : AuditWriter) (event : Fields) (entry : AuditEntry) : Prop :=
  ∃ es s0 s calls c, ChainedLog rt w s0 es ∧ Cold s0 ∧ (auditMutex rt w).Runs s0 (s, calls) ∧ c ∈ calls ∧
    c.args.payload = .obj event ∧ c.written? = some entry

/-! ### Secrets in a value -/

def isRedactedText : JsValue → Bool
  | .str s => s = redactedText
  | _ => false

mutual
/-- A key of `REDACTED_KEYS` has a value in it, at any depth. -/
def exposes : JsValue → Bool
  | .arr es => anyExposes es
  | .obj fs => fieldsExpose fs
  | _ => false

def anyExposes : List JsValue → Bool
  | [] => false
  | v :: vs => exposes v || anyExposes vs

def fieldsExpose : Fields → Bool
  | [] => false
  | (key, value) :: fs => (key ∈ redactedKeys && !isRedactedText value) || exposes value || fieldsExpose fs
end

mutual
/-- It is exposed where the redactor does not look: in an array, or under a whitelisted key. -/
def hidesIn : JsValue → Bool
  | .obj fs => hides fs
  | v => exposes v

def hides : Fields → Bool
  | [] => false
  | (key, value) :: fs =>
    (key ≠ protoKey && (if key ∈ auditWhitelist then exposes value
      else key ∉ redactedKeys && hidesIn value)) || hides fs
end

mutual
/-- The redactor finds nothing in it to change. -/
def isClean : JsValue → Bool
  | .obj fs => fieldsClean fs
  | _ => true

def fieldsClean : Fields → Bool
  | [] => true
  | (key, value) :: fs =>
    (key ≠ protoKey && (key ∈ auditWhitelist ||
      if key ∈ redactedKeys then isRedactedText value else isClean value)) && fieldsClean fs
end

theorem isRedactedText_iff {v : JsValue} : isRedactedText v = true ↔ v = .str redactedText := by
  cases v <;> simp [isRedactedText]

theorem whitelist_not_redacted {key : JsString} (h : key ∈ auditWhitelist) : key ∉ redactedKeys := by
  have hall : ∀ key ∈ auditWhitelist, key ∉ redactedKeys := by decide
  exact hall key h

theorem fieldsExpose_append (fs gs : Fields) :
    fieldsExpose (fs ++ gs) = (fieldsExpose fs || fieldsExpose gs) := by
  induction fs with
  | nil => rfl
  | cons f fs ih => rw [List.cons_append, fieldsExpose, fieldsExpose, ih, Bool.or_assoc,
    Bool.or_assoc, Bool.or_assoc]

theorem fieldsExpose_assigned (key : JsString) (value : JsValue) : fieldsExpose (assigned key value) =
    (key ≠ protoKey && ((key ∈ redactedKeys && !isRedactedText value) || exposes value)) := by
  rw [assigned]
  split_ifs with h <;> simp [fieldsExpose, h]

mutual
theorem exposes_redactValue : ∀ v : JsValue, exposes (redactValue v).1 = hidesIn v
  | .obj fs => by rw [redactValue, exposes, hidesIn, fieldsExpose_redactObject fs]
  | .undefined => rfl
  | .null => rfl
  | .bool _ => rfl
  | .num _ => rfl
  | .str _ => rfl
  | .bigint _ => rfl
  | .function => rfl
  | .symbol => rfl
  | .arr _ => rfl

/-- What is exposed after redaction is what was hidden from it. -/
theorem fieldsExpose_redactObject : ∀ fs : Fields, fieldsExpose (redactObject fs).1 = hides fs
  | [] => rfl
  | (key, value) :: fs => by
    rw [redactObject, hides]
    split_ifs with hwhite hredacted
    · rw [fieldsExpose_append, fieldsExpose_assigned, fieldsExpose_redactObject fs]
      simp [whitelist_not_redacted hwhite]
    · rw [fieldsExpose_append, fieldsExpose_assigned, fieldsExpose_redactObject fs]
      simp [isRedactedText, exposes, hredacted]
    · rw [fieldsExpose_append, fieldsExpose_assigned, fieldsExpose_redactObject fs, exposes_redactValue value]
      simp [hredacted]
end

/-! ### Events of a type -/

theorem filter_assigned (p : JsString → Bool) (key : JsString) (value : JsValue) :
    (assigned key value).filter (fun f => p f.1) = if p key = true then assigned key value else [] := by
  rw [assigned]
  split_ifs <;> simp [*]

/-- The keys that are left out need not have been redacted. -/
theorem redactObject_filter (p : JsString → Bool) (fs : Fields) :
    (redactObject fs).1.filter (fun f => p f.1) = (redactObject (fs.filter fun f => p f.1)).1 := by
  induction fs with
  | nil => rfl
  | cons f fs ih =>
    obtain ⟨key, value⟩ := f
    have hhead (gs : Fields) : (redactObject ((key, value) :: gs)).1 =
        (redactObject [(key, value)]).1 ++ (redactObject gs).1 := by
      rw [redactObject, redactObject]
      split_ifs <;> simp [redactObject]
    have hone : (redactObject [(key, value)]).1.filter (fun f => p f.1) =
        if p key = true then (redactObject [(key, value)]).1 else [] := by
      rw [redactObject]
      split_ifs <;> simp [redactObject, filter_assigned, *]
    rw [hhead, List.filter_append, hone, ih, List.filter_cons]
    split_ifs with hp
    · exact (hhead _).symm
    · rfl

/-- An event keeps the secrets that are hidden under the keys which its type allows. -/
theorem redactAuditEvent_exposes (event : Fields) :
    fieldsExpose (redactAuditEvent event) = hides (event.filter fun f => allowedKey event f.1) := by
  rw [redactAuditEvent, redactObject_filter, fieldsExpose_redactObject]

/-! ### What redaction leaves as it is -/

theorem assigned_length_le (key : JsString) (value : JsValue) : (assigned key value).length ≤ 1 := by
  rw [assigned]
  split_ifs <;> simp

theorem redactObject_length_le (fs : Fields) : (redactObject fs).1.length ≤ fs.length := by
  induction fs with
  | nil => exact le_rfl
  | cons f fs ih =>
    obtain ⟨key, value⟩ := f
    have hassigned := assigned_length_le key
    rw [redactObject]
    split_ifs
    all_goals
      rw [List.length_append, List.length_cons, Nat.add_comm]
      exact Nat.add_le_add ih (hassigned _)

theorem assigned_append_eq_cons {key : JsString} {v w : JsValue} {rest fs : Fields}
    (hrest : rest.length ≤ fs.length) :
    assigned key v ++ rest = (key, w) :: fs ↔ key ≠ protoKey ∧ v = w ∧ rest = fs := by
  rw [assigned]
  split_ifs with hproto
  · constructor
    · intro h
      rw [List.nil_append] at h
      rw [h, List.length_cons] at hrest
      omega
    · exact fun h => absurd hproto h.1
  · simp [hproto]

mutual
theorem redactValue_eq_iff : ∀ v : JsValue, (redactValue v).1 = v ↔ isClean v = true
  | .obj fs => by rw [redactValue, isClean, JsValue.obj.injEq, redactObject_eq_iff fs]
  | .undefined => by simp [redactValue, isClean]
  | .null => by simp [redactValue, isClean]
  | .bool _ => by simp [redactValue, isClean]
  | .num _ => by simp [redactValue, isClean]
  | .str _ => by simp [redactValue, isClean]
  | .bigint _ => by simp [redactValue, isClean]
  | .function => by simp [redactValue, isClean]
  | .symbol => by simp [redactValue, isClean]
  | .arr _ => by simp [redactValue, isClean]

/-- Redaction leaves an event as it is exactly when there is nothing in it to redact. -/
theorem redactObject_eq_iff : ∀ fs : Fields, (redactObject fs).1 = fs ↔ fieldsClean fs = true
  | [] => by simp [redactObject, fieldsClean]
  | (key, value) :: fs => by
    have hle := redactObject_length_le fs
    rw [redactObject, fieldsClean]
    by_cases hwhite : key ∈ auditWhitelist
    · rw [if_pos hwhite, assigned_append_eq_cons hle, redactObject_eq_iff fs]
      simp [hwhite]
    · rw [if_neg hwhite]
      by_cases hredacted : key ∈ redactedKeys
      · rw [if_pos hredacted, if_pos hredacted, assigned_append_eq_cons hle, redactObject_eq_iff fs,
          Bool.and_eq_true, Bool.and_eq_true, Bool.or_eq_true, isRedactedText_iff, and_assoc,
          @eq_comm _ (JsValue.str redactedText) value]
        simp [hwhite]
      · rw [if_neg hredacted, if_neg hredacted, assigned_append_eq_cons hle, redactObject_eq_iff fs,
          redactValue_eq_iff value, Bool.and_eq_true, Bool.and_eq_true, Bool.or_eq_true, and_assoc]
        simp [hwhite]
end

/-! ### The sink and the runtime -/

/-- A write that has no secret in it -/
def WritesNoSecret : SinkAsk → Prop
  | .write event => exposes event = false
  | .clock => True

theorem originalWrite_asks {event : JsValue} (h : exposes event = false) :
    (originalWrite event).Asks WritesNoSecret := by
  refine ⟨h, fun thrown => ?_⟩
  cases thrown <;> trivial

theorem leakMarker_exposes (field time : JsString) : exposes (leakMarker field time) = false := by
  have htype : js "type" ∉ redactedKeys := by decide
  have hfield : js "field" ∉ redactedKeys := by decide
  have hat : js "at" ∉ redactedKeys := by decide
  simp [leakMarker, exposes, fieldsExpose, htype, hfield, hat]

theorem emitMarkers_asks (leaked : List JsString) : (emitMarkers leaked).Asks WritesNoSecret := by
  induction leaked with
  | nil => trivial
  | cons field leaked ih =>
    have hmarker (time : JsString) : (originalWrite (leakMarker field time)).Asks WritesNoSecret :=
      originalWrite_asks (leakMarker_exposes field time)
    refine ⟨trivial, fun time => ?_⟩
    change ((originalWrite (leakMarker field time)).bind fun _ => emitMarkers leaked).Asks WritesNoSecret
    exact asks_bind (hmarker time) fun _ => ih

/-- The sink writes what was hidden from the redactor, and nothing else that is secret. -/
theorem redactingWrite_asks_iff (event : Fields) :
    (redactingWrite event).Asks WritesNoSecret ↔ hides event = false := by
  have hwritten : exposes (.obj (redactObject event).1) = hides event := fieldsExpose_redactObject event
  constructor
  · intro h
    rw [← hwritten]
    exact h.1
  · intro h
    rw [← hwritten] at h
    exact asks_bind (originalWrite_asks h) fun _ => emitMarkers_asks _

theorem runs_isJson {rt : Runtime} {w : AuditWriter} {s0 : WriterState} {st : WriterState × List AppendCall}
    (h : (auditMutex rt w).Runs s0 st) : ∀ c ∈ st.2, c.args.payload.isJson = true := by
  refine PromiseMutex.forall_of_runs h (fun c hc => hc.2) ?_
  rintro s c s' c' ⟨answer, now, -, -, rfl⟩ hjson
  exact hjson

theorem appended_isJson {rt : Runtime} {w : AuditWriter} {event : Fields} {entry : AuditEntry}
    (h : AppendsEvent rt w event entry) : (JsValue.obj event).isJson = true := by
  obtain ⟨es, s0, s, calls, c, -, -, hruns, hc, hpayload, -⟩ := h
  rw [← hpayload]
  exact runs_isJson hruns c hc

theorem appended_payload {rt : Runtime} {w : AuditWriter} {event : Fields} {entry : AuditEntry}
    (h : AppendsEvent rt w event entry) : entry.payload = .obj event := by
  obtain ⟨es, s0, s, calls, c, hlog, hcold, hruns, hc, hpayload, hwritten⟩ := h
  rw [← hpayload]
  exact ((runs_chained hlog hcold hruns).2 c hc entry hwritten).payload

/-- An event that is JSON is appended by some run. -/
theorem exists_appends (rt : Runtime) (w : AuditWriter) {event : Fields}
    (h : (JsValue.obj event).isJson = true) : ∃ entry, AppendsEvent rt w event entry := by
  obtain ⟨entry, s', halone⟩ := @appendAlone_empty rt w none (sampleArgs event) (js "2026-01-01T00:00:00.000Z")
    h rfl
  have hruns := tick_runs rt w (js "2026-01-01T00:00:00.000Z") (.fresh none) (sampleArgs event) h 9
  rw [show (tick rt w _)^[9] _ = (s', _) from halone] at hruns
  have hempty : ChainedLog rt w (.fresh none) [] := ⟨rfl, trivial⟩
  exact ⟨entry, [], _, s', _, _, hempty, ⟨rfl, rfl⟩, hruns, List.mem_singleton.mpr rfl, rfl, rfl⟩

/-- What is appended by the runtime has been redacted only if it had not to be. -/
theorem appends_redacted_iff (rt : Runtime) (w : AuditWriter) (event : Fields) :
    (∀ entry, AppendsEvent rt w event entry → entry.payload = .obj (redactObject event).1) ↔
      ((JsValue.obj event).isJson = true → fieldsClean event = true) := by
  constructor
  · intro h hjson
    obtain ⟨entry, happends⟩ := exists_appends rt w hjson
    have hpayload := h entry happends
    rw [appended_payload happends] at hpayload
    exact (redactObject_eq_iff event).mp (JsValue.obj.inj hpayload).symm
  · intro h entry happends
    rw [appended_payload happends, (redactObject_eq_iff event).mpr (h (appended_isJson happends))]

/-- No secret of the event reaches the audit log: not by the redacted event, not by any write of the sink,
and not by the entries that the runtime's own writer makes of it, which have been redacted. -/
structure KeepsSecrets (rt : Runtime) (wiring : AuditWiring) (event : Fields) : Prop where
  redacted : fieldsExpose (redactAuditEvent event) = false
  sink : (wiring.adapter event).Asks WritesNoSecret
  runtime : ∀ entry, AppendsEvent rt wiring.audit event entry → entry.payload = .obj (redactObject event).1

theorem hides_filter {event : Fields} (p : JsString → Bool) (h : hides event = false) :
    hides (event.filter fun f => p f.1) = false := by
  induction event with
  | nil => rfl
  | cons f event ih =>
    obtain ⟨hhead, htail⟩ := Bool.or_eq_false_iff.mp h
    rw [List.filter_cons]
    split_ifs
    · rw [hides, hhead, ih htail, Bool.or_false]
    · exact ih htail

/-- The secrets of an event stay out of the log exactly when none is hidden in an array or under a
whitelisted key and, if the event can be appended at all, none is left that redaction would take away. The
redacted event alone keeps those hidden under keys that its type allows, and the sink writes all that are
hidden. -/
theorem keepsSecrets_iff (rt : Runtime) (dataDir actor : JsString) (key : Bytes) (event : Fields) :
    (KeepsSecrets rt (assembleAudit dataDir actor key) event ↔
      hides event = false ∧ ((JsValue.obj event).isJson = true → fieldsClean event = true)) ∧
      (fieldsExpose (redactAuditEvent event) = false ↔
        hides (event.filter fun f => allowedKey event f.1) = false) ∧
      ((redactingWrite event).Asks WritesNoSecret ↔ hides event = false) := by
  refine ⟨⟨fun h => ?_, fun h => ?_⟩, ?_, redactingWrite_asks_iff event⟩
  · exact ⟨(redactingWrite_asks_iff event).mp h.sink, (appends_redacted_iff rt _ event).mp h.runtime⟩
  · obtain ⟨hhidden, hclean⟩ := h
    refine ⟨?_, (redactingWrite_asks_iff event).mpr hhidden, (appends_redacted_iff rt _ event).mpr hclean⟩
    rw [redactAuditEvent_exposes]
    exact hides_filter _ hhidden
  · rw [redactAuditEvent_exposes]

/-- A list of hosts with their passwords -/
def hostsEvent : Fields :=
  [(js "hosts", .arr [.obj [(js "name", .str (js "nas")), (js "password", .str (js "hunter2"))]])]

/-- The sink writes the password, since it stands in an array. -/
theorem array_exposed : ¬ ∀ (rt : Runtime) (dataDir actor : JsString) (key : Bytes) (event : Fields),
    KeepsSecrets rt (assembleAudit dataDir actor key) event := by
  intro h
  have hkept := h sampleRuntime (js "/data") (js "ada") (List.replicate 32 0) hostsEvent
  have hhidden := (redactingWrite_asks_iff hostsEvent).mp hkept.sink
  have hshown : hides hostsEvent = true := by decide +kernel
  rw [hshown] at hhidden
  cases hhidden

end Homelab
