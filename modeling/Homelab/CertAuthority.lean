import Homelab.DataDir
import Homelab.JsCoerce

/-! `SSHCertificateManager` without an audit writer, as the CLI builds it. Serials are
exact numbers; the program's are doubles, which agree below 2^53. -/
namespace Homelab
open Js Effect

/-! ### Text -/

def parseDigits (s : JsString) : Option ℕ :=
  if (spanDigits s).1 = [] then none else some (ofDigitList (spanDigits s).1)

/-- `parseInt(s, 10)`, with `none` for `NaN`. -/
def parseInt (s : JsString) : Option ℤ :=
  match s.dropWhile isWhiteSpace with
  | 0x2D :: rest => (parseDigits rest).map fun n => -(n : ℤ)
  | 0x2B :: rest => (parseDigits rest).map fun n => (n : ℤ)
  | rest => (parseDigits rest).map fun n => (n : ℤ)

/-- `String(n)` -/
def serialText (n : ℕ) : JsString := digitsText (digitList n)

def isFingerprintUnit (c : CodeUnit) : Bool :=
  (0x41 ≤ c.toNat && c.toNat ≤ 0x5A) || (0x61 ≤ c.toNat && c.toNat ≤ 0x7A) || isDigitUnit c ||
    c = 0x2B || c = 0x2F || c = 0x3D

/-- `/SHA256:[A-Za-z0-9+/=]+/` -/
def matchFingerprint : JsString → Option JsString
  | [] => none
  | c :: rest =>
    let hash := ((c :: rest).drop 7).takeWhile isFingerprintUnit
    if (js "SHA256:").isPrefixOf (c :: rest) ∧ hash ≠ [] then some (js "SHA256:" ++ hash)
    else matchFingerprint rest

/-- `/Principals:\s*\n\s+(\S+)/`: the white space has a line break before its last unit. -/
def matchPrincipals : JsString → Option JsString
  | [] => none
  | c :: rest =>
    let tail := (c :: rest).drop 11
    let space := tail.takeWhile isWhiteSpace
    let name := (tail.drop space.length).takeWhile fun c => !isWhiteSpace c
    if (js "Principals:").isPrefixOf (c :: rest) ∧ 0x0A ∈ space.dropLast ∧ name ≠ [] then some name
    else matchPrincipals rest

/-! ### `ssh-keygen` -/

/-- What `ssh-keygen -t ed25519 -f <name>` leaves under `<name>` and `<name>.pub`, and
its error output when it fails. -/
structure KeygenRun where
  key : Option JsString
  pub : Option JsString
  result : Except JsString Unit

/-- The directory with the two files as the run leaves them. -/
def KeygenRun.store (run : KeygenRun) (folder : Folder) (name : JsString) (d : DataDir) : DataDir :=
  (d.put (.inside folder name) run.key).put (.inside folder (name ++ js ".pub")) run.pub

theorem name_ne_pub (folder : Folder) (name : JsString) :
    (.inside folder name : Place) ≠ .inside folder (name ++ js ".pub") := by
  intro heq
  injection heq with _ hname
  have hlength := congrArg List.length hname
  rw [List.length_append] at hlength
  have hpub : (js ".pub").length = 4 := rfl
  omega

section Store

variable (run : KeygenRun) {folder : Folder} {name : JsString} {d : DataDir}

theorem KeygenRun.store_key (h : d.hasParent (.inside folder name)) :
    (run.store folder name d).file (.inside folder name) = run.key := by
  rw [store, DataDir.file_put_of_ne _ _ (name_ne_pub folder name), DataDir.file_put_self _ _ _ h]

theorem KeygenRun.store_pub (h : d.hasParent (.inside folder name)) :
    (run.store folder name d).file (.inside folder (name ++ js ".pub")) = run.pub := by
  apply DataDir.file_put_self
  simpa [DataDir.hasParent, DataDir.put] using h

/-- A run that leaves the two files as it found them leaves the directory as it was. -/
theorem KeygenRun.store_same (hkey : run.key = d.file (.inside folder name))
    (hpub : run.pub = d.file (.inside folder (name ++ js ".pub"))) : run.store folder name d = d := by
  rw [store, hkey, DataDir.put_file, hpub, DataDir.put_file]

end Store

/-- The program, as far as it is called here. A key that it generates is new. -/
structure SshKeygen where
  generate : Folder → (name passphrase comment : JsString) → DataDir → KeygenRun
  sign : List JsString → DataDir → Option JsString × Except JsString Unit
  inspect : (flag path : JsString) → DataDir → Except JsString JsString
  generate_fresh : ∀ folder name passphrase comment d,
    (generate folder name passphrase comment d).result = .ok () →
      ∃ key, (generate folder name passphrase comment d).key = some key ∧ ∀ p, d.file p ≠ some key

structure CaHost where
  refuses : FsCall → Option Refusal
  sshKeygen : SshKeygen
  dataDir : JsString
  pid : JsString
  dateNow : JsString
  nowIso : JsString

/-! ### Places -/

def caKey : Place := .inside .ca (js "homelab_ca.key")

def caPub : Place := .inside .ca (js "homelab_ca.pub")

def caBasename : Place := .inside .ca (js "homelab_ca")

def revocationList : Place := .inside .ca (js "revocation.list")

def serialCounter : Place := .inside .ca (js "serial.counter")

def userKey (platformId : JsString) : Place := .inside .keys (platformId ++ js ".key")

def userPub (platformId : JsString) : Place := .inside .keys (platformId ++ js ".pub")

def userCert (platformId : JsString) : Place := .inside .keys (platformId ++ js ".cert")

def Folder.name : Folder → JsString
  | .ca => js "ca"
  | .keys => js "keys"

def CaHost.path (h : CaHost) : Place → JsString
  | .consent => h.dataDir ++ js "/network_consent.yaml"
  | .inventory => h.dataDir ++ js "/inventory.yaml"
  | .inside folder name => h.dataDir ++ js "/" ++ folder.name ++ js "/" ++ name

def CaHost.caDir (h : CaHost) : JsString := h.dataDir ++ js "/ca"

/-! ### `SSHCertificateManager` -/

def keygenResult : Except JsString Unit → Cli Unit
  | .ok () => pure ()
  | .error stderr => throw (.ca .sshKeygenFailed (js "ssh-keygen failed: " ++ stderr))

def generateKey (h : CaHost) (folder : Folder) (name passphrase comment : JsString) : Cli Unit := do
  let m ← get
  let run := h.sshKeygen.generate folder name passphrase comment m.dir
  changeDir (run.store folder name)
  keygenResult run.result

/-- `ssh-keygen -s`, which leaves the certificate at `keys/<name>-cert.pub`. -/
def signKey (h : CaHost) (name : JsString) (args : List JsString) : Cli Unit := do
  let m ← get
  let run := h.sshKeygen.sign args m.dir
  changeDir fun d => d.put (.inside .keys (name ++ js "-cert.pub")) run.1
  keygenResult run.2

def inspectKey (h : CaHost) (flag : JsString) (p : Place) : Cli JsString := do
  let m ← get
  give ((h.sshKeygen.inspect flag (h.path p) m.dir).mapError fun stderr =>
    .ca .sshKeygenFailed (js "ssh-keygen failed: " ++ stderr))

def fingerprint (h : CaHost) (p : Place) : Cli JsString := do
  let stdout ← inspectKey h (js "-l") p
  match matchFingerprint stdout with
  | some fp => pure fp
  | none => throw (.ca .fingerprintParseFailed (js "could not parse fingerprint from: " ++ stdout))

structure CertMetadata where
  fingerprint : JsString
  principal : JsString

def readCertMetadata (h : CaHost) (p : Place) : Cli CertMetadata := do
  let stdout ← inspectKey h (js "-L") p
  pure ⟨(matchFingerprint stdout).getD [], (matchPrincipals stdout).getD []⟩

def writeSerialCounter (h : CaHost) (value : ℕ) : Cli Unit := do
  atomicWriteFile h.refuses serialCounter (serialText value)
  chmod h.refuses serialCounter

/-- The counter that its text stands for. -/
def currentSerial (raw : JsString) : ℕ :=
  match parseInt (trim raw) with
  | some n => if 0 < n then n.toNat else 1
  | none => 1

def readSerial (h : CaHost) : Cli ℕ :=
  tryCatch (currentSerial <$> readFile h.refuses serialCounter) fun
    | .node e => if e.error.code = some (js "ENOENT") then pure 1 else throw (.node e)
    | e => throw e

def nextSerial (h : CaHost) : Cli ℕ := do
  let current ← readSerial h
  writeSerialCounter h (current+1)
  pure current

/-- Where `ssh-keygen` wrote the key, if it is there, it moves to the key's own place. -/
def placeCaKey (h : CaHost) : Cli Unit := do
  if ← fileExists h.refuses caBasename then rename h.refuses caBasename caKey

/-- What `initializeCA` does once it has generated the key. -/
def initFinish (h : CaHost) : Cli Unit := do
  placeCaKey h
  chmod h.refuses caKey
  chmod h.refuses caPub
  atomicWriteFile h.refuses revocationList []
  chmod h.refuses revocationList
  writeSerialCounter h 1

def initializeCA (h : CaHost) (passphrase : JsString) : Cli Unit := do
  require (passphrase ≠ []) (.ca .emptyPassphrase (js "CA passphrase must not be empty"))
  let present ← fileExists h.refuses caKey
  require (!present) (.ca .caAlreadyExists (js "CA already exists at " ++ h.path caKey))
  mkdir h.refuses .ca
  mkdir h.refuses .keys
  generateKey h .ca (js "homelab_ca") passphrase (js "homelab-ca")
  initFinish h

structure RotationResult where
  oldFingerprint : JsString
  newFingerprint : JsString
  revokedAt : JsString

/-- The basename that a rotation works under in `keys/`. -/
def rotationName (h : CaHost) (platformId : JsString) : JsString :=
  platformId ++ js ".rotate-" ++ h.pid ++ js "-" ++ h.dateNow

def rotateCleanup (h : CaHost) (name : JsString) (e : Thrown) : Cli Unit := do
  safeUnlink h.refuses (.inside .keys name)
  safeUnlink h.refuses (.inside .keys (name ++ js ".pub"))
  safeUnlink h.refuses (.inside .keys (name ++ js "-cert.pub"))
  throw e

/-- Phase 2 of `rotateKey`: a new key and its certificate under temporary names. -/
def rotateGenerate (h : CaHost) (platformId passphrase principal : JsString) : Cli Unit :=
  let name := rotationName h platformId
  tryCatch
    (do
      generateKey h .keys name [] platformId
      chmod h.refuses (.inside .keys name)
      let serial ← nextSerial h
      signKey h name [js "-s", h.path caKey, js "-P", passphrase, js "-I", platformId, js "-n",
        principal, js "-V", js "+365d", js "-z", serialText serial,
        h.path (.inside .keys (name ++ js ".pub"))])
    (rotateCleanup h name)

/-- Phase 3 of `rotateKey`: the temporary names become the canonical ones. -/
def rotateRename (h : CaHost) (platformId : JsString) : Cli Unit :=
  let name := rotationName h platformId
  tryCatch
    (do
      rename h.refuses (.inside .keys name) (userKey platformId)
      rename h.refuses (.inside .keys (name ++ js ".pub")) (userPub platformId)
      rename h.refuses (.inside .keys (name ++ js "-cert.pub")) (userCert platformId))
    fun e => throw (.ca .criticalRotationPartial
      (js "rotation phase 3 partial failure for " ++ platformId ++ js "; inspect " ++ h.dataDir ++
        js "/keys manually: " ++ e.message))

/-- Phase 4 of `rotateKey`: the old fingerprint is revoked. -/
def rotateRevoke (h : CaHost) (platformId oldFingerprint : JsString) : Cli RotationResult := do
  appendFile h.refuses revocationList
    (platformId ++ js "\t" ++ oldFingerprint ++ js "\t" ++ h.nowIso ++ js "\n")
  chmod h.refuses revocationList
  let newFingerprint ← fingerprint h (userCert platformId)
  pure ⟨oldFingerprint, newFingerprint, h.nowIso⟩

/-- What `rotateKey` does once it has the new key and certificate. -/
def rotateFinish (h : CaHost) (platformId oldFingerprint : JsString) : Cli RotationResult := do
  rotateRename h platformId
  chmod h.refuses (userKey platformId)
  chmod h.refuses (userPub platformId)
  chmod h.refuses (userCert platformId)
  rotateRevoke h platformId oldFingerprint

def noCert (h : CaHost) (platformId : JsString) : Thrown :=
  .ca .noCert (js "no cert for " ++ platformId ++ js " at " ++ h.path (userCert platformId))

def rotateKey (h : CaHost) (platformId passphrase : JsString) : Cli RotationResult := do
  let hasCert ← fileExists h.refuses (userCert platformId)
  require hasCert (noCert h platformId)
  let hasCa ← fileExists h.refuses caKey
  require hasCa (.ca .noCa (js "CA has not been initialized"))
  let oldMeta ← readCertMetadata h (userCert platformId)
  rotateGenerate h platformId passphrase
    (if oldMeta.principal = [] then platformId else oldMeta.principal)
  rotateFinish h platformId oldMeta.fingerprint

def revokeKeys (h : CaHost) (platformId : JsString) : Cli Unit := do
  let hasCert ← fileExists h.refuses (userCert platformId)
  require hasCert (noCert h platformId)
  let fp ← fingerprint h (userCert platformId)
  mkdir h.refuses .ca
  appendFile h.refuses revocationList
    (platformId ++ js "\t" ++ fp ++ js "\t" ++ h.nowIso ++ js "\n")
  chmod h.refuses revocationList

/-! ### What the manager changes -/

section Within

variable {R : Machine → Machine → Prop} [IsPreorder Machine R] {W : Place → Prop} (h : CaHost)

theorem keygenResult_within (result : Except JsString Unit) : Within R (keygenResult result) := by
  cases result with
  | ok => exact Within.pure _
  | error => exact Within.throw _

theorem inspectKey_within (flag : JsString) (p : Place) : Within R (inspectKey h flag p) :=
  Within.bind Within.get fun _ => Within.give _

theorem fingerprint_within (p : Place) : Within R (fingerprint h p) := by
  apply Within.bind (inspectKey_within h _ _)
  intro stdout
  cases matchFingerprint stdout with
  | some => exact Within.pure _
  | none => exact Within.throw _

variable (hR : Permits R W)
include hR

theorem generateKey_within {folder : Folder} {name : JsString} (passphrase comment : JsString)
    (hkey : W (.inside folder name)) (hpub : W (.inside folder (name ++ js ".pub"))) :
    Within R (generateKey h folder name passphrase comment) := by
  apply Within.bind Within.get
  intro m
  apply Within.bind
  · apply Within.update
    intro m
    exact trans_of R (hR.put m _ _ hkey) (hR.put { m with dir := m.dir.put _ _ } _ _ hpub)
  · exact fun _ => keygenResult_within _

theorem signKey_within {name : JsString} (args : List JsString)
    (hcert : W (.inside .keys (name ++ js "-cert.pub"))) : Within R (signKey h name args) := by
  apply Within.bind Within.get
  intro m
  exact Within.bind (put_within hR hcert _) fun _ => keygenResult_within _

theorem writeSerialCounter_within (hserial : W serialCounter) (value : ℕ) :
    Within R (writeSerialCounter h value) :=
  Within.bind (atomicWriteFile_within _ hR hserial _) fun _ => chmod_within _ _

theorem placeCaKey_within (hbase : W caBasename) (hkey : W caKey) : Within R (placeCaKey h) :=
  Within.bind (fileExists_within _ _) fun _ =>
    Within.ite _ (rename_within _ hR hbase hkey) (Within.pure _)

theorem rotateCleanup_within (hkeys : ∀ name, W (.inside .keys name)) (name : JsString) (e : Thrown) :
    Within R (rotateCleanup h name e) := by
  apply Within.bind (safeUnlink_within _ hR (hkeys _))
  intro _
  apply Within.bind (safeUnlink_within _ hR (hkeys _))
  intro _
  apply Within.bind (safeUnlink_within _ hR (hkeys _))
  exact fun _ => Within.throw _

theorem rotateRename_within (hkeys : ∀ name, W (.inside .keys name)) (platformId : JsString) :
    Within R (rotateRename h platformId) := by
  apply Within.tryCatch
  · apply Within.bind (rename_within _ hR (hkeys _) (hkeys _))
    intro _
    apply Within.bind (rename_within _ hR (hkeys _) (hkeys _))
    exact fun _ => rename_within _ hR (hkeys _) (hkeys _)
  · exact fun _ => Within.throw _

theorem rotateRevoke_within (hlist : W revocationList) (platformId oldFingerprint : JsString) :
    Within R (rotateRevoke h platformId oldFingerprint) := by
  apply Within.bind (appendFile_within _ hR hlist _)
  intro _
  apply Within.bind (chmod_within _ _)
  intro _
  exact Within.bind (fingerprint_within _ _) fun _ => Within.pure _

theorem rotateFinish_within (hkeys : ∀ name, W (.inside .keys name)) (hlist : W revocationList)
    (platformId oldFingerprint : JsString) : Within R (rotateFinish h platformId oldFingerprint) := by
  apply Within.bind (rotateRename_within h hR hkeys _)
  intro _
  apply Within.bind (chmod_within _ _)
  intro _
  apply Within.bind (chmod_within _ _)
  intro _
  apply Within.bind (chmod_within _ _)
  exact fun _ => rotateRevoke_within h hR hlist _ _

end Within

end Homelab
