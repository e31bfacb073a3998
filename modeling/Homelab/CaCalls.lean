import Homelab.CertAuthority
import Homelab.JsDouble
import Homelab.Protocol

/-! `signPlatformCert` and `rotateKey` of `SSHCertificateManager` with all their awaits, for calls that run
side by side on one data directory: what each of them asks the file system, `ssh-keygen` and the audit writer,
and what it makes of the answers. -/
namespace Homelab
open Js Dialogue

/-! ### Serials -/

/-- `String(n)`, which has an exponent from 10^21 on -/
def doubleText (n : ℕ) : JsString := if n < 10^21 then serialText n else (JsNumber.ofNat n).toText

/-- What `nextSerial` makes of the text of the counter -/
def serialIn (raw : JsString) : ℕ := roundDouble (currentSerial raw)

/-! ### Questions -/

/-- What `ssh-keygen -s` is called with -/
structure SignRequest where
  passphrase : JsString
  identity : JsString
  principal : JsString
  validity : JsString
  serial : ℕ
  pub : Place

inductive CaAsk
  | fileExists (p : Place)
  | mkdir (folder : Folder)
  | chmod (p : Place) (mode : ℕ)
  | rename (source target : Place)
  | unlink (p : Place)
  | readFile (p : Place)
  | writeFile (p : Place) (contents : JsString)
  | appendFile (p : Place) (contents : JsString)
  | generate (name comment : JsString)
  | sign (r : SignRequest)
  | inspect (flag : JsString) (p : Place)
  | audit (event : JsString) (payload : Fields)
  | dateNow
  | nowIso

/-- An error of the file system or of the audit writer, or what `ssh-keygen` prints when it fails -/
abbrev CaReply : CaAsk → Type
  | .fileExists _ => Bool
  | .readFile _ => Except ErrnoException JsString
  | .generate _ _ => Except JsString Unit
  | .sign _ => Except JsString Unit
  | .inspect _ _ => Except JsString JsString
  | .dateNow => JsString
  | .nowIso => JsString
  | _ => Except ErrnoException Unit

inductive CaFailure
  | node (e : ErrnoException)
  | ca (code message : JsString)

def CaFailure.message : CaFailure → JsString
  | .node e => e.message
  | .ca _ message => message

abbrev CaProgram := Dialogue CaReply CaFailure

def question (q : CaAsk) : CaProgram (CaReply q) := put q

/-- `CAError('SSH_KEYGEN_FAILED', ...)` -/
def keygenFailed (stderr : JsString) : CaFailure :=
  .ca (js "SSH_KEYGEN_FAILED") (js "ssh-keygen failed: " ++ stderr)

/-- The manager; `audits` says whether it has an audit writer. -/
structure SSHCertificateManager where
  dataDir : JsString
  pid : JsString
  audits : Bool

namespace SSHCertificateManager

def refuse {α : Type} (ok : Bool) (e : CaFailure) (rest : CaProgram α) : CaProgram α :=
  if ok then rest else .fail e

def mkdir (folder : Folder) : CaProgram Unit := do
  give (Except.mapError CaFailure.node (← question (.mkdir folder)))

def chmod (p : Place) (mode : ℕ) : CaProgram Unit := do
  give (Except.mapError CaFailure.node (← question (.chmod p mode)))

def rename (source target : Place) : CaProgram Unit := do
  give (Except.mapError CaFailure.node (← question (.rename source target)))

def appendFile (p : Place) (contents : JsString) : CaProgram Unit := do
  give (Except.mapError CaFailure.node (← question (.appendFile p contents)))

/-- `atomicWriteFile`, whose temporary file has a name of its own -/
def writeFile (p : Place) (contents : JsString) : CaProgram Unit := do
  give (Except.mapError CaFailure.node (← question (.writeFile p contents)))

def generate (name comment : JsString) : CaProgram Unit := do
  give (Except.mapError keygenFailed (← question (.generate name comment)))

def sign (r : SignRequest) : CaProgram Unit := do
  give (Except.mapError keygenFailed (← question (.sign r)))

def inspect (flag : JsString) (p : Place) : CaProgram JsString := do
  give (Except.mapError keygenFailed (← question (.inspect flag p)))

def safeUnlink (p : Place) : CaProgram Unit := do
  let _ ← question (.unlink p)
  pure ()

/-! ### `SSHCertificateManager` -/

def path (m : SSHCertificateManager) : Place → JsString
  | .consent => m.dataDir ++ js "/network_consent.yaml"
  | .inventory => m.dataDir ++ js "/inventory.yaml"
  | .inside folder name => m.dataDir ++ js "/" ++ folder.name ++ js "/" ++ name

def writeSerialCounter (value : ℕ) : CaProgram Unit := do
  writeFile serialCounter (doubleText value)
  chmod serialCounter 0o600

def readSerial : CaProgram ℕ := do
  match ← question (.readFile serialCounter) with
  | .ok raw => pure (serialIn raw)
  | .error e => if e.code = some (js "ENOENT") then pure 1 else .fail (.node e)

def nextSerial : CaProgram ℕ := do
  let current ← readSerial
  writeSerialCounter (roundDouble (current+1))
  pure current

variable (m : SSHCertificateManager)

def fingerprint (p : Place) : CaProgram JsString := do
  let stdout ← inspect (js "-l") p
  match matchFingerprint stdout with
  | some fp => pure fp
  | none => .fail (.ca (js "FINGERPRINT_PARSE_FAILED") (js "could not parse fingerprint from: " ++ stdout))

def readCertMetadata (p : Place) : CaProgram CertMetadata := do
  let stdout ← inspect (js "-L") p
  pure ⟨(matchFingerprint stdout).getD [], (matchPrincipals stdout).getD []⟩

def append (event : JsString) (payload : Fields) : CaProgram Unit :=
  if m.audits then do
    give (Except.mapError CaFailure.node (← question (.audit event payload)))
  else pure ()

/-- The user key of a platform that has none -/
def generateUserKey (platformId : JsString) : CaProgram Unit := do
  generate platformId platformId
  if ← question (.fileExists (.inside .keys platformId)) then
    rename (.inside .keys platformId) (userKey platformId)
  chmod (userKey platformId) 0o600
  chmod (userPub platformId) 0o644

/-- What `signPlatformCert` audits; the fingerprint is best-effort. -/
def auditSigned (platformId principal : JsString) (validityDays : JsNumber) (serial : ℕ) : CaProgram Unit :=
  if m.audits then do
    let fp ← (fingerprint (userCert platformId)).attempt
    m.append (js "cert_signed") [(js "serial", .num (.ofNat serial)), (js "principal", .str principal),
      (js "validity_days", .num validityDays), (js "fingerprint", .str (fp.toOption.getD [])),
      (js "cert_path", .str (m.path (userCert platformId)))]
  else pure ()

/-- `signPlatformCert`, once the user key is there -/
def signUserKey (platformId : JsString) (validityDays : JsNumber) (principal passphrase : JsString) :
    CaProgram JsString := do
  let serial ← nextSerial
  sign ⟨passphrase, platformId, principal, js "+" ++ validityDays.toText ++ js "d", serial,
    userPub platformId⟩
  if ← question (.fileExists (.inside .keys (platformId ++ js "-cert.pub"))) then
    rename (.inside .keys (platformId ++ js "-cert.pub")) (userCert platformId)
  chmod (userCert platformId) 0o644
  m.auditSigned platformId principal validityDays serial
  pure (m.path (userCert platformId))

def signPlatformCert (platformId : JsString) (validityDays : JsNumber) (principal passphrase : JsString) :
    CaProgram JsString :=
  refuse (!validityDays.le (.ofNat 0))
    (.ca (js "BAD_VALIDITY") (js "validityDays must be > 0; got " ++ validityDays.toText)) do
  let hasCa ← question (.fileExists caKey)
  refuse hasCa (.ca (js "NO_CA") (js "CA has not been initialized")) do
  mkdir .keys
  let hasKey ← question (.fileExists (userKey platformId))
  if hasKey then m.signUserKey platformId validityDays principal passphrase
  else do
    generateUserKey platformId
    m.signUserKey platformId validityDays principal passphrase

/-- The basename that a rotation works under in `keys/` -/
def tempBasename (platformId dateNow : JsString) : JsString :=
  platformId ++ js ".rotate-" ++ m.pid ++ js "-" ++ dateNow

def cleanUp (temp : JsString) : CaProgram Unit := do
  safeUnlink (.inside .keys temp)
  safeUnlink (.inside .keys (temp ++ js ".pub"))
  safeUnlink (.inside .keys (temp ++ js "-cert.pub"))

/-- Phase 2 of `rotateKey`: a new key and its certificate under temporary names -/
def rotateGenerate (temp platformId principal passphrase : JsString) : CaProgram Unit := do
  generate temp platformId
  chmod (.inside .keys temp) 0o600
  let serial ← nextSerial
  sign ⟨passphrase, platformId, principal, js "+365d", serial, .inside .keys (temp ++ js ".pub")⟩

/-- Phase 3 of `rotateKey`: the temporary names become the canonical ones. -/
def rotateRename (temp platformId : JsString) : CaProgram Unit := do
  rename (.inside .keys temp) (userKey platformId)
  rename (.inside .keys (temp ++ js ".pub")) (userPub platformId)
  rename (.inside .keys (temp ++ js "-cert.pub")) (userCert platformId)

/-- The line of the revocation list -/
def revocationLine (platformId fingerprint now : JsString) : JsString :=
  platformId ++ js "\t" ++ fingerprint ++ js "\t" ++ now ++ js "\n"

/-- What `rotateKey` does once the new certificate stands: phase 4 revokes the old fingerprint. -/
def rotateRevoke (platformId oldFingerprint principal : JsString) : CaProgram RotationResult := do
  chmod (userKey platformId) 0o600
  chmod (userPub platformId) 0o644
  chmod (userCert platformId) 0o644
  let now ← question .nowIso
  appendFile revocationList (revocationLine platformId oldFingerprint now)
  chmod revocationList 0o600
  let newFingerprint ← fingerprint (userCert platformId)
  m.append (js "cert_revoked") [(js "fingerprint", .str oldFingerprint), (js "revoked_at", .str now),
    (js "reason", .str (js "rotation"))]
  m.append (js "cert_signed") [(js "principal", .str principal), (js "fingerprint", .str newFingerprint),
    (js "validity_days", .num (.ofNat 365)), (js "rotated_from", .str oldFingerprint),
    (js "cert_path", .str (m.path (userCert platformId)))]
  pure ⟨oldFingerprint, newFingerprint, now⟩

/-- `rotateKey`, once the old certificate has been read -/
def rotateWith (platformId passphrase oldFingerprint principal : JsString) : CaProgram RotationResult := do
  let temp := m.tempBasename platformId (← question .dateNow)
  match ← (rotateGenerate temp platformId principal passphrase).attempt with
  | .error e =>
    cleanUp temp
    .fail e
  | .ok () =>
    match ← (rotateRename temp platformId).attempt with
    | .error e =>
      .fail (.ca (js "CRITICAL_ROTATION_PARTIAL") (js "rotation phase 3 partial failure for " ++ platformId ++
        js "; inspect " ++ m.dataDir ++ js "/keys manually: " ++ e.message))
    | .ok () => m.rotateRevoke platformId oldFingerprint principal

def rotateKey (platformId passphrase : JsString) : CaProgram RotationResult := do
  let hasCert ← question (.fileExists (userCert platformId))
  refuse hasCert (.ca (js "NO_CERT") (js "no cert for " ++ platformId ++ js " at " ++
    m.path (userCert platformId))) do
  let hasCa ← question (.fileExists caKey)
  refuse hasCa (.ca (js "NO_CA") (js "CA has not been initialized")) do
  let oldMeta ← readCertMetadata (userCert platformId)
  m.rotateWith platformId passphrase oldMeta.fingerprint
    (if oldMeta.principal = [] then platformId else oldMeta.principal)

/-! ### The revocation list -/

/-- The fingerprint of a line, if it has one -/
def revokedBy (line : JsString) : Option JsString :=
  match (trim line).splitOn 0x09 with
  | _ :: fp :: _ => if fp = [] then none else some fp
  | _ => none

/-- `readRevocationFingerprints`, of a list that can be read -/
def revocationFingerprints (raw : JsString) : List JsString :=
  ((raw.splitOn 0x0A).filterMap revokedBy).eraseDups

/-- The lines that `generateKRL` gives to `ssh-keygen -k` -/
def krlInputLines (raw : JsString) : List JsString :=
  (revocationFingerprints raw).map fun fp => js "sha256: " ++ fp

end SSHCertificateManager

end Homelab
