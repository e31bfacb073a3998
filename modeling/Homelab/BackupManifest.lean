import Homelab.CanonicalJson
import Homelab.Host
import Homelab.JsCoerce

/-! The backup manifest: what is read from its file, the upgrade of the two older
shapes, and the HMAC that each entry carries. An entry is any JSON value. -/
namespace Homelab
open Js

/-- What the host supplies: the two clocks, `Date.parse` with `none` for `NaN`, the
secret in the environment, the HMAC digest of a text under a key, the message of a
`SyntaxError`, and the order in which an inconsistent comparator leaves a list. -/
structure BackupRuntime where
  now : ℤ
  isoNow : JsString
  dateParse : JsString → Option ℤ
  secret : Option JsString
  hmacSha256 : Bytes → JsString → Bytes
  syntaxMessage : JsString → JsString
  anyOrder : List JsValue → List JsValue
  anyOrder_perm : ∀ l, (anyOrder l).Perm l

inductive BackupError
  | required (actionId target : JsString)
  | node (e : ErrnoException)
  | error (message : JsString)
  | syntaxError (message : JsString)
  | typeError (message : JsString)

def BackupError.message : BackupError → JsString
  | .required actionId target => js "Action " ++ actionId ++ js " requires a fresh backup of " ++
      target ++ js "; none found in manifest."
  | .node e => e.message
  | .error message => message
  | .syntaxError message => message
  | .typeError message => message

/-! ### `convertLegacyManifest` -/

def isText : JsValue → Bool
  | .str _ => true
  | _ => false

/-- An entry of the v1-verifier shape, of which `platform` is a text. -/
def promoteVerifier (rt : BackupRuntime) (e : JsValue) : JsValue :=
  let platform := property (js "platform") e
  let backupType := property (js "backup_type") e
  .obj [(js "schema_version", .num (.ofNat 2)), (js "platform", platform),
    (js "target_id", backupType.orElse platform), (js "backup_type", backupType.orElse (.str [])),
    (js "taken_at", (property (js "taken_at") e).orElse (.str rt.isoNow)),
    (js "location", (property (js "location") e).orElse (.str [])),
    (js "size_bytes", match property (js "size_bytes") e with
      | .num x => .num x
      | _ => .num (.ofNat 0)),
    (js "max_age_seconds", .num (.ofNat 86400)), (js "checksum", .str []),
    (js "verified", .bool false), (js "hmac", (property (js "hmac") e).orElse (.str []))]

/-- An entry of the v1-overdue shape, of which `id` is a text. -/
def promoteOverdue (rt : BackupRuntime) (b : JsValue) : JsValue :=
  .obj [(js "schema_version", .num (.ofNat 2)), (js "platform", .str (js "unknown")),
    (js "target_id", property (js "id") b), (js "backup_type", .str (js "unknown")),
    (js "taken_at", (property (js "last_run") b).orElse (.str rt.isoNow)),
    (js "location", .str []), (js "size_bytes", .num (.ofNat 0)),
    (js "max_age_seconds", match property (js "max_age_hours") b with
      | .num x => .num (x.scale 3600)
      | _ => .num (.ofNat 86400)),
    (js "checksum", .str []), (js "verified", .bool false), (js "hmac", .str [])]

/-- The loop over a list of legacy entries: those without the text under `key` are
skipped, and reading a property of `null` throws. -/
def promoteAll (key : JsString) (promote : JsValue → JsValue) :
    List JsValue → Except BackupError (List JsValue)
  | [] => .ok []
  | e :: rest => do
    let name ← (readProperty e key).mapError .typeError
    let promoted ← promoteAll key promote rest
    return if isText name then promote e :: promoted else promoted

def elements : JsValue → List JsValue
  | .arr es => es
  | _ => []

def isVersion2 (raw : JsValue) : Bool :=
  match property (js "schema_version") raw, property (js "entries") raw with
  | .num version, .arr _ => version.strictEq (.ofNat 2)
  | _, _ => false

/-- The entries of `convertLegacyManifest(raw)`; those of a v2 file come as they are. -/
def convertLegacyManifest (rt : BackupRuntime) (raw : JsValue) : Except BackupError (List JsValue) :=
  if isVersion2 raw then .ok (elements (property (js "entries") raw))
  else do
    let verified ← promoteAll (js "platform") (promoteVerifier rt)
      (elements (property (js "entries") raw))
    let overdue ← promoteAll (js "id") (promoteOverdue rt) (elements (property (js "backups") raw))
    return verified ++ overdue

/-- `readManifest`, given what reading the file answers. -/
def readManifest (rt : BackupRuntime) (file : Except ErrnoException JsString) :
    Except BackupError (List JsValue) :=
  match file with
  | .error e => if e.code = some (js "ENOENT") then .ok [] else .error (.node e)
  | .ok raw =>
    match jsonParse raw with
    | none => .error (.syntaxError (rt.syntaxMessage raw))
    | some parsed => convertLegacyManifest rt parsed

/-! ### The HMAC of an entry -/

def minSecretLen : ℕ := 32

/-- `getSecret()`; `error` is the message of what it throws. -/
def getSecret (rt : BackupRuntime) : Except JsString Bytes :=
  let v := rt.secret.getD []
  if rt.secret = none ∨ v.length < minSecretLen then
    .error (js "HOMELAB_HMAC_SECRET must be set and >= 32 chars (got " ++
      (JsNumber.ofNat v.length).toText ++ js ").")
  else .ok (encodeUtf8 v)

/-- `const { hmac, ...rest } = entry` -/
def withoutHmac : JsValue → Fields
  | .obj fs => fs.filter fun f => f.1 != js "hmac"
  | _ => []

/-- The digest that the fields of an entry are signed with. -/
def entryDigest (rt : BackupRuntime) (fields : Fields) : Except JsString Bytes := do
  let key ← getSecret rt
  let text ← canonicalJson (.obj fields)
  return rt.hmacSha256 key text

def signManifestEntry (rt : BackupRuntime) (entry : Fields) : Except JsString Fields := do
  let digest ← entryDigest rt entry
  return setOwn (js "hmac") (.str (hexText digest)) entry

def verifyEntryHmac (rt : BackupRuntime) (entry : JsValue) : Bool :=
  match property (js "hmac") entry with
  | .str [] => false
  | .str hmac =>
    match entryDigest rt (withoutHmac entry) with
    | .error _ => false
    | .ok expected => bufferFromHex hmac == expected
  | _ => false

/-- The entry carries the digest that the secret gives for its other fields. -/
def HmacVerifies (rt : BackupRuntime) (entry : JsValue) : Prop :=
  ∃ hmac digest, property (js "hmac") entry = .str hmac ∧ hmac ≠ [] ∧
    entryDigest rt (withoutHmac entry) = .ok digest ∧ bufferFromHex hmac = digest

theorem verifyEntryHmac_iff (rt : BackupRuntime) (entry : JsValue) :
    verifyEntryHmac rt entry = true ↔ HmacVerifies rt entry := by
  unfold verifyEntryHmac HmacVerifies
  split
  · next h => simp [h]
  · next hmac hne h =>
    cases entryDigest rt (withoutHmac entry) with
    | error message => simp
    | ok expected =>
      constructor
      · intro heq
        exact ⟨hmac, expected, h, hne, rfl, beq_iff_eq.mp heq⟩
      · intro hverifies
        obtain ⟨hmac', digest, hp, _, hdigest, heq⟩ := hverifies
        rw [h] at hp
        cases hp
        cases hdigest
        exact beq_iff_eq.mpr heq
  · next h =>
    constructor
    · intro hfalse
      exact absurd hfalse Bool.false_ne_true
    · intro hverifies
      obtain ⟨hmac, _, hp, _⟩ := hverifies
      exact absurd hp (h hmac)

end Homelab
