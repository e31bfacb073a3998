import Homelab.Storable

/-! The records of delayed actions, and the signed files they are kept in. A file is what
`JSON.parse` makes of it. -/
namespace Homelab
open Js

inductive PendingStatus
  | pending
  | cancelled
  | fired
deriving DecidableEq

def PendingStatus.text : PendingStatus → JsString
  | .pending => js "pending"
  | .cancelled => js "cancelled"
  | .fired => js "fired"

/-- The persisted record. Its times are milliseconds since the epoch, kept as ISO texts,
and its delay is in whole milliseconds. -/
structure PendingAction where
  actionId : JsString
  scheduledAt : ℤ
  fireAt : ℤ
  delayMs : ℤ
  dryRunReport : Option JsString
  status : PendingStatus

/-- A host with `Date.prototype.toISOString`. -/
structure DelayHost extends HmacHost where
  toISOString : ℤ → JsString

def PendingAction.fields (host : DelayHost) (r : PendingAction) : LiveFields :=
  [(js "action_id", .str r.actionId), (js "scheduled_at", .str (host.toISOString r.scheduledAt)),
    (js "fire_at", .str (host.toISOString r.fireAt)), (js "delay_ms", .num (.ofScaledInt r.delayMs 0)),
    (js "status", .str r.status.text)] ++
    optField (js "dry_run_report") (r.dryRunReport.map .str)

/-! ### `delay.ts` -/

/-- `SAFE_ID` -/
def isSafeId (id : JsString) : Bool :=
  let isSafe (c : CodeUnit) : Bool :=
    let n := c.toNat
    (0x41 ≤ n && n ≤ 0x5A) || (0x61 ≤ n && n ≤ 0x7A) || (0x30 ≤ n && n ≤ 0x39) || n = 0x5F || n = 0x2D
  id ≠ [] && id.all isSafe

/-- What `persist` leaves in the file of the record's id, or what it throws. -/
def persist (host : DelayHost) (record : PendingAction) : Except JsString (Option JsValue) := do
  let signed ← signPayload host.toHmacHost (.obj (record.fields host))
  if isSafeId record.actionId then reread signed
  else .error (js "Invalid action_id: " ++ record.actionId)

def isPendingStatus : JsValue → Bool
  | .str s => s = js "pending" || s = js "cancelled" || s = js "fired"
  | _ => false

def isSignedPendingAction (v : JsValue) : Bool :=
  let p := property (js "payload") v
  isString (property (js "hmac") v) && isString (property (js "action_id") p) &&
    isString (property (js "scheduled_at") p) && isString (property (js "fire_at") p) &&
    isNumber (property (js "delay_ms") p) && isPendingStatus (property (js "status") p)

/-- `readRecord` from the value that the file of the action holds, if there is one. -/
def readRecord (host : HmacHost) (actionId : JsString) (file : Option JsValue) :
    Except JsString (Option JsValue) :=
  match file with
  | none => .ok none
  | some raw =>
    if isSignedPendingAction raw && verifyPayload host raw then
      .ok (some (property (js "payload") raw))
    else .error (js "HMAC mismatch on " ++ actionId)

/-! ### Records survive their files -/

variable {host : DelayHost} {r : PendingAction}

theorem PendingAction.wellFormed_live (host : DelayHost) (r : PendingAction) :
    (LiveValue.obj (r.fields host)).wellFormed = true := by
  rw [LiveValue.wellFormed_obj, PendingAction.fields]
  constructor
  · have hkeys : OwnOrder [js "action_id", js "scheduled_at", js "fire_at", js "delay_ms",
        js "status", js "dry_run_report"] := by decide
    refine List.Pairwise.sublist ?_ hkeys
    rw [List.map_append]
    exact (List.Sublist.refl [js "action_id", js "scheduled_at", js "fire_at", js "delay_ms",
      js "status"]).append (optField_keys _ _)
  · intro f hf
    rcases List.mem_append.mp hf with hf | hf
    · simp only [List.mem_cons, List.not_mem_nil, or_false] at hf
      rcases hf with rfl | rfl | rfl | rfl | rfl <;> rfl
    · refine wellFormed_optField ?_ f hf
      intro w hw
      obtain ⟨t, _, rfl⟩ := Option.map_eq_some_iff.mp hw
      rfl

theorem PendingAction.storable_live (host : DelayHost) (r : PendingAction) :
    (LiveValue.obj (r.fields host)).Storable := by
  rw [LiveValue.storable_obj, PendingAction.fields]
  intro f hf
  rcases List.mem_append.mp hf with hf | hf
  · simp only [List.mem_cons, List.not_mem_nil, or_false] at hf
    rcases hf with rfl | rfl | rfl | rfl | rfl
    · exact LiveValue.storable_str _
    · exact LiveValue.storable_str _
    · exact LiveValue.storable_str _
    · exact storable_num.mpr rfl
    · exact LiveValue.storable_str _
  · exact forall_optField.mpr (storable_text r.dryRunReport) f hf

theorem persist_iff {file : Option JsValue} : persist host r = .ok file ↔
    ∃ signed, signPayload host.toHmacHost (.obj (r.fields host)) = .ok signed ∧
      isSafeId r.actionId = true ∧ reread signed = .ok file := by
  rw [persist, LiveValue.bind_ok_iff]
  apply exists_congr
  intro signed
  apply and_congr_right
  intro _
  split_ifs with hid
  · exact ⟨fun h => ⟨hid, h⟩, And.right⟩
  · exact ⟨fun h => (by cases h), fun h => absurd h.1 hid⟩

/-- A record that is persisted is read back as it was. -/
theorem readRecord_persist {key : Bytes} (hkey : host.getSecret = .ok key)
    (hid : isSafeId r.actionId = true) :
    ∃ raw payload, persist host r = .ok (some raw) ∧
      readRecord host.toHmacHost r.actionId (some raw) = .ok (some payload) ∧
      property (js "status") payload = .str r.status.text ∧
      property (js "fire_at") payload = .str (host.toISOString r.fireAt) ∧
      property (js "action_id") payload = .str r.actionId := by
  have hwf := r.wellFormed_live host
  have hlive := r.storable_live host
  obtain ⟨text, htext⟩ := hlive.signable
  have hsign := signPayload_iff.mpr ⟨text, key, htext, hkey, rfl⟩
  obtain ⟨raw, hreread, hverify⟩ := roundTrips_of_faithful hwf hsign hlive.faithful
  obtain ⟨gs, hwritten, rfl⟩ := reread_object hwf hsign hreread
  have htext {k t : JsString} (hmem : (k, .str t) ∈ r.fields host) :=
    property_text hwf hwritten hmem
  have haction := htext (k := js "action_id") (t := r.actionId) (by simp [PendingAction.fields])
  have hscheduled := htext (k := js "scheduled_at") (t := host.toISOString r.scheduledAt)
    (by simp [PendingAction.fields])
  have hfire := htext (k := js "fire_at") (t := host.toISOString r.fireAt)
    (by simp [PendingAction.fields])
  have hstatus := htext (k := js "status") (t := r.status.text) (by simp [PendingAction.fields])
  obtain ⟨rd, hrd, hdelay⟩ := property_written (k := js "delay_ms")
    (v := .num (.ofScaledInt r.delayMs 0)) hwf hwritten (by simp [PendingAction.fields])
  cases hrd
  have hshape : isSignedPendingAction
      (.obj (posZeroFields (envelopeFields (some (.obj gs)) (hexText (host.hmacSha256 key text))))) =
        true := by
    rw [isSignedPendingAction]
    simp only [property_payload, property_hmac, Option.getD_some, haction, hscheduled, hfire,
      hdelay, hstatus]
    cases r.status <;> rfl
  refine ⟨_, (JsValue.obj gs).posZero, persist_iff.mpr ⟨_, hsign, hid, hreread⟩, ?_, hstatus,
    hfire, haction⟩
  rw [readRecord, hshape, hverify, property_payload]
  rfl

end Homelab
