import Homelab.Host
import Homelab.JsCoerce
import Homelab.LiveValue

/-! The signed envelopes of the safety state files, and which values survive being
signed, written, read and verified. -/
namespace Homelab
open Js

/-- The secret in the environment, and the HMAC digest of a text under a key. -/
structure HmacHost where
  secret : Option JsString
  hmacSha256 : Bytes → JsString → Bytes

namespace HmacHost

def minSecretLen : ℕ := 32

/-- `getSecret()`; `error` is the message of what it throws. -/
def getSecret (host : HmacHost) : Except JsString Bytes :=
  let v := host.secret.getD []
  if host.secret = none ∨ v.length < minSecretLen then
    .error (js "HOMELAB_HMAC_SECRET must be set and >= 32 chars (got " ++
      (JsNumber.ofNat v.length).toText ++ js ").")
  else .ok (encodeUtf8 v)

end HmacHost

/-- A signed payload envelope. -/
structure Signed where
  payload : LiveValue
  hmac : JsString

def Signed.live (s : Signed) : LiveValue :=
  .obj [(js "payload", s.payload), (js "hmac", .str s.hmac)]

def signPayload (host : HmacHost) (payload : LiveValue) : Except JsString Signed := do
  let canonical ← payload.encode
  let key ← host.getSecret
  return ⟨payload, hexText (host.hmacSha256 key canonical)⟩

/-- The digest that `verifyPayload` expects of an envelope. -/
def expectedDigest (host : HmacHost) (signed : JsValue) : Except JsString Bytes := do
  let key ← host.getSecret
  let text ← canonicalJson (property (js "payload") signed)
  return host.hmacSha256 key text

def verifyPayload (host : HmacHost) (signed : JsValue) : Bool :=
  if signed.typeof = js "object" then
    match property (js "hmac") signed with
    | .str hmac =>
      match expectedDigest host signed with
      | .error _ => false
      | .ok expected => bufferFromHex hmac == expected
    | _ => false
  else false

/-- `JSON.parse(JSON.stringify(signed))`, where there is a text to parse. -/
def reread (signed : Signed) : Except JsString (Option JsValue) := do
  return (← signed.live.stringify).bind jsonParse

/-- What is read back from the written envelope is accepted. -/
def RoundTrips (host : HmacHost) (signed : Signed) : Prop :=
  ∃ envelope, reread signed = .ok (some envelope) ∧ verifyPayload host envelope = true

variable {host : HmacHost}

theorem signPayload_iff {v : LiveValue} {signed : Signed} :
    signPayload host v = .ok signed ↔ ∃ text key, v.encode = .ok text ∧ host.getSecret = .ok key ∧
      signed = ⟨v, hexText (host.hmacSha256 key text)⟩ := by
  rw [signPayload, LiveValue.bind_ok_iff]
  apply exists_congr
  intro text
  rw [map_ok_iff, exists_and_left]

theorem expectedDigest_iff {signed : JsValue} {digest : Bytes} :
    expectedDigest host signed = .ok digest ↔ ∃ key text, host.getSecret = .ok key ∧
      canonicalJson (property (js "payload") signed) = .ok text ∧
        digest = host.hmacSha256 key text := by
  rw [expectedDigest, LiveValue.bind_ok_iff]
  apply exists_congr
  intro key
  rw [map_ok_iff, exists_and_left]

theorem verifyPayload_iff {signed : JsValue} : verifyPayload host signed = true ↔
    signed.typeof = js "object" ∧ ∃ hmac key text, property (js "hmac") signed = .str hmac ∧
      host.getSecret = .ok key ∧ canonicalJson (property (js "payload") signed) = .ok text ∧
        bufferFromHex hmac = host.hmacSha256 key text := by
  unfold verifyPayload
  split_ifs with hobject
  · split
    · rename_i hmac hhmac
      cases hexpected : expectedDigest host signed with
      | error message =>
        refine ⟨fun h => (by cases h), fun h => ?_⟩
        obtain ⟨_, _, key, text, _, hkey, htext, _⟩ := h
        rw [expectedDigest_iff.mpr ⟨key, text, hkey, htext, rfl⟩] at hexpected
        cases hexpected
      | ok expected =>
        obtain ⟨key, text, hkey, htext, rfl⟩ := expectedDigest_iff.mp hexpected
        constructor
        · intro h
          exact ⟨hobject, hmac, key, text, hhmac, hkey, htext, beq_iff_eq.mp h⟩
        · intro h
          obtain ⟨_, hmac', key', text', hhmac', hkey', htext', h⟩ := h
          rw [hhmac] at hhmac'
          rw [hkey] at hkey'
          rw [htext] at htext'
          cases hhmac'
          cases hkey'
          cases htext'
          exact beq_iff_eq.mpr h
    · rename_i hno
      refine ⟨fun h => (by cases h), fun h => ?_⟩
      obtain ⟨_, hmac, _, _, hhmac, _⟩ := h
      exact absurd hhmac (hno hmac)
  · exact ⟨fun h => (by cases h), fun h => absurd h.1 hobject⟩

/-! ### Round trips -/

/-- The fields that are written of an envelope. -/
def envelopeFields (payload : Option JsValue) (hmac : JsString) : Fields :=
  (payload.map fun j => (js "payload", j)).toList ++ [(js "hmac", .str hmac)]

theorem written_live {signed : Signed} {r : Option JsValue} (h : signed.payload.written = .ok r) :
    signed.live.written = .ok (some (.obj (envelopeFields r signed.hmac))) := by
  apply LiveValue.written_obj_iff.mpr
  refine ⟨_, LiveValue.writtenMembers_cons_iff.mpr ⟨r, _, h, ?_, rfl⟩, rfl⟩
  rfl

theorem written_live_error {signed : Signed} {message : JsString}
    (h : signed.payload.written = .error message) : signed.live.written = .error message := by
  rw [Signed.live, LiveValue.written, LiveValue.writtenMembers, h]
  rfl

theorem envelopeFields_isJson {r : Option JsValue} (hmac : JsString)
    (h : ∀ j, r = some j → j.isJson = true) : (JsValue.obj (envelopeFields r hmac)).isJson = true := by
  cases r with
  | none => rfl
  | some j =>
    have hkeys : OwnOrder ((envelopeFields (some j) hmac).map Prod.fst) := by
      change OwnOrder [js "payload", js "hmac"]
      decide
    have hfields : fieldsJson (envelopeFields (some j) hmac) = true := by
      simp only [envelopeFields, Option.map_some, Option.toList_some, List.singleton_append,
        fieldsJson, h j rfl, JsValue.isJson, Bool.and_self]
    simp only [JsValue.isJson, hkeys, hfields, decide_true, Bool.and_self]

/-- What is read back from a written envelope. -/
theorem reread_eq {signed : Signed} {r : Option JsValue} (hwf : signed.payload.wellFormed = true)
    (h : signed.payload.written = .ok r) :
    reread signed = .ok (some (.obj (posZeroFields (envelopeFields r signed.hmac)))) := by
  have hjson : (JsValue.obj (envelopeFields r signed.hmac)).isJson = true := by
    apply envelopeFields_isJson
    intro j hj
    exact LiveValue.written_isJson _ hwf (hj ▸ h)
  have hparse := jsonParse_jsonText _ hjson
  rw [reread, LiveValue.stringify, written_live h]
  exact congrArg Except.ok hparse

theorem property_payload (r : Option JsValue) (hmac : JsString) :
    property (js "payload") (.obj (posZeroFields (envelopeFields r hmac))) =
      (r.getD .undefined).posZero := by
  simp only [property, JsValue.get?, Option.getD_some, getOwn_posZeroFields]
  cases r with
  | none => rfl
  | some j => rfl

theorem property_hmac (r : Option JsValue) (hmac : JsString) :
    property (js "hmac") (.obj (posZeroFields (envelopeFields r hmac))) = .str hmac := by
  simp only [property, JsValue.get?, Option.getD_some, getOwn_posZeroFields]
  cases r with
  | none => rfl
  | some j => rfl

/-- The digests of the value's canonical text and of the one that is read back do not
collide. -/
def NoCollision (host : HmacHost) (v : LiveValue) : Prop :=
  ∀ key text text' j, host.getSecret = .ok key → v.encode = .ok text →
    v.written = .ok (some j) → encode j = .ok text' →
      host.hmacSha256 key text = host.hmacSha256 key text' → text = text'

theorem faithful_of_roundTrips {v : LiveValue} {signed : Signed} (hwf : v.wellFormed = true)
    (hsign : signPayload host v = .ok signed) (hcollision : NoCollision host v)
    (h : RoundTrips host signed) : v.Faithful := by
  obtain ⟨text, key, htext, hkey, rfl⟩ := signPayload_iff.mp hsign
  obtain ⟨envelope, hreread, hverify⟩ := h
  cases hwritten : v.written with
  | error message =>
    rw [reread, LiveValue.stringify, written_live_error hwritten] at hreread
    cases hreread
  | ok r =>
    rw [reread_eq hwf hwritten] at hreread
    obtain rfl := Option.some.inj (Except.ok.inj hreread)
    obtain ⟨_, hmac, key', text', hhmac, hkey', htext', hdigest⟩ := verifyPayload_iff.mp hverify
    rw [property_hmac] at hhmac
    rw [property_payload, canonicalJson, encode_posZero] at htext'
    rw [← JsValue.str.inj hhmac, bufferFromHex_hexText] at hdigest
    rw [hkey] at hkey'
    obtain rfl := Except.ok.inj hkey'
    cases r with
    | none => cases htext'
    | some j =>
      have hsame := hcollision key text text' j hkey htext hwritten htext' hdigest
      exact LiveValue.faithful_of_encode v hwf htext hwritten (hsame ▸ htext')

theorem roundTrips_of_faithful {v : LiveValue} {signed : Signed} (hwf : v.wellFormed = true)
    (hsign : signPayload host v = .ok signed) (h : v.Faithful) : RoundTrips host signed := by
  obtain ⟨text, key, htext, hkey, rfl⟩ := signPayload_iff.mp hsign
  obtain ⟨j, hwritten, hencode⟩ := LiveValue.Faithful.written v h htext
  refine ⟨_, reread_eq hwf hwritten, verifyPayload_iff.mpr ⟨rfl, ?_⟩⟩
  refine ⟨_, key, text, property_hmac _ _, hkey, ?_, bufferFromHex_hexText _⟩
  rw [property_payload, canonicalJson, encode_posZero]
  exact hencode

/-- A faithful value is read back with its own canonical text. -/
theorem noCollision_of_faithful {v : LiveValue} (h : v.Faithful) : NoCollision host v := by
  intro key text text' j _ htext hwritten htext' _
  obtain ⟨j', hwritten', hencode⟩ := LiveValue.Faithful.written v h htext
  rw [hwritten] at hwritten'
  obtain rfl := Option.some.inj (Except.ok.inj hwritten')
  rw [hencode] at htext'
  exact Except.ok.inj htext'

/-- A signed value is accepted again exactly when the encoder has signed what
`JSON.stringify` writes. -/
theorem roundTrips_iff (host : HmacHost) (v : LiveValue) (signed : Signed)
    (hwf : v.wellFormed = true) (hsign : signPayload host v = .ok signed)
    (hcollision : NoCollision host v) : RoundTrips host signed ↔ v.Faithful :=
  ⟨faithful_of_roundTrips hwf hsign hcollision, roundTrips_of_faithful hwf hsign⟩

/-! ### A record with a date -/

/-- `{ at: new Date(...) }`: the encoder finds no fields in a `Date`. -/
def dateRecord : LiveValue :=
  .obj [(js "at", .exotic (.obj []) (.ok (some (.str (js "2026-01-01T00:00:00.000Z")))))]

def dateText : JsString := js "\x7b\"at\":\x7b\x7d\x7d"

/-- The digests of the two texts of the record under a secret of 32 letters. -/
def dateHost : HmacHost where
  secret := some (List.replicate 32 0x78)
  hmacSha256 _ m :=
    if m = dateText then
      bufferFromHex (js "475d94dfbe275a615ef0641cf5383b19e0185245920ec88ccb4645e10bc96fdb")
    else bufferFromHex (js "5cd2d5bb6d741452e0dcc55b4289cb65ed3f25f8067b33ff96a480f5194ab8f1")

theorem date_encode : (LiveValue.obj []).encode = .ok (js "\x7b\x7d") :=
  LiveValue.encode_obj_iff.mpr ⟨[], rfl, by rw [sortKeys, List.mergeSort_nil]; rfl⟩

theorem dateRecord_encode : dateRecord.encode = .ok dateText := by
  apply LiveValue.encode_obj_iff.mpr
  refine ⟨[(js "at", js "\x7b\x7d")], ?_, ?_⟩
  · exact congrArg (fun e => [(js "at", e)]) date_encode
  · rw [sortKeys, List.mergeSort_singleton]
    rfl

theorem dateHost_secret : dateHost.getSecret = .ok (encodeUtf8 (List.replicate 32 0x78)) := rfl

theorem dateRecord_sign : ∃ signed, signPayload dateHost dateRecord = .ok signed :=
  ⟨_, signPayload_iff.mpr ⟨_, _, dateRecord_encode, dateHost_secret, rfl⟩⟩

theorem dateHost_noCollision : NoCollision dateHost dateRecord := by
  intro key text text' j _ htext _ _ hsame
  rw [dateRecord_encode] at htext
  obtain rfl := Except.ok.inj htext
  by_contra hne
  simp only [dateHost, if_neg (Ne.symm hne), ↓reduceIte] at hsame
  exact absurd hsame (by decide)

theorem roundTrips_iff_date : ∃ signed, signPayload dateHost dateRecord = .ok signed ∧
    (RoundTrips dateHost signed ↔ dateRecord.Faithful) := by
  obtain ⟨signed, hsign⟩ := dateRecord_sign
  exact ⟨signed, hsign, roundTrips_iff _ _ _ rfl hsign dateHost_noCollision⟩

theorem dateRecord_not_faithful : ¬ dateRecord.Faithful := by
  intro h
  obtain ⟨⟨j, hj, hencode⟩, _⟩ := h
  cases hj
  rw [date_encode] at hencode
  exact absurd (Except.ok.inj hencode) (by decide)

/-- A record with a `Date` in it is signed, written and then refused. -/
theorem roundTrips_fails : ¬ ∀ (host : HmacHost) (v : LiveValue) (signed : Signed),
    v.wellFormed = true → signPayload host v = .ok signed → RoundTrips host signed := by
  intro h
  obtain ⟨signed, hsign⟩ := dateRecord_sign
  apply dateRecord_not_faithful
  exact faithful_of_roundTrips rfl hsign dateHost_noCollision (h _ _ _ rfl hsign)

end Homelab
