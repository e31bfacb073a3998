import Homelab.Automaton
import Homelab.EnumerationCalls
import Homelab.JsonNesting
import Homelab.JsonParse
import Homelab.LiveValue
import Mathlib.Logic.Function.Basic

/-! `PassphraseProvider`: the passphrase that providers of one data directory store, read back and remember, whatever
becomes of the two files in between. -/
namespace Homelab
open Js

/-! ### Files -/

/-- A file, by what `access`, `readFile` and a `rename` onto it make of it. One that is there but cannot be read, as
a directory, may also be one that cannot be replaced. -/
inductive StoredFile
  | absent
  | contents (bytes : Bytes)
  | unreadable (e : ErrnoException) (replaced : Except ErrnoException Unit)

def noSuchFile : ErrnoException := ⟨some (js "ENOENT"), js "ENOENT: no such file or directory"⟩

def StoredFile.readFile : StoredFile → Except ErrnoException Bytes
  | .absent => .error noSuchFile
  | .contents bytes => .ok bytes
  | .unreadable e _ => .error e

/-- `atomicWriteFile` and the `chmod` after it -/
def StoredFile.atomicWrite : StoredFile → Bytes → Except ErrnoException StoredFile
  | .unreadable _ (.error e), _ => .error e
  | _, bytes => .ok (.contents bytes)

/-- `fileExists` -/
def StoredFile.fileExists : StoredFile → Bool
  | .absent => false
  | _ => true

/-- `host.key` and `passphrase.enc` in the directory `ca` -/
structure PassphraseFiles where
  hostKey : StoredFile
  blob : StoredFile

/-! ### Errors and the calls of `crypto` -/

inductive PassphraseFailure
  | unavailable (message : JsString)
  | typeError (message : JsString)
  | node (e : ErrnoException)

/-- PBKDF2 and AES-256-GCM, which throw on arguments that they cannot take; `encrypt` makes the ciphertext and the
tag. `Buffer.from(v, 'hex')` for values that are no texts, the double that a number literal stands for, and the
message of a `SyntaxError`. -/
structure PassphraseHost where
  pbkdf2Sync : Bytes → Bytes → JsValue → Except ErrnoException (Vector UInt8 32)
  encrypt : Vector UInt8 32 → Vector UInt8 12 → Bytes → Bytes × Bytes
  decrypt : Vector UInt8 32 → Bytes → Bytes → Bytes → Except ErrnoException Bytes
  bufferFrom : JsValue → Except ErrnoException Bytes
  double : Decimal → JsNumber
  syntaxMessage : JsString → JsString

def HOST_KEY_LENGTH : ℕ := 32

def KDF_ITERATIONS : ℕ := 200000

def BLOB_VERSION : ℕ := 1

/-- AES-256-GCM decrypts what it has encrypted, PBKDF2 takes the number of iterations of the program, and a double
holds each number that the program writes. -/
structure PassphraseHost.Deciphers (host : PassphraseHost) : Prop where
  derives : ∀ hostKey salt, ∃ key, host.pbkdf2Sync hostKey salt (.num (.ofNat KDF_ITERATIONS)) = .ok key
  decrypts : ∀ key iv plain,
    host.decrypt key iv.toList (host.encrypt key iv plain).2 (host.encrypt key iv plain).1 = .ok plain
  doubles : ∀ n ≤ 2^53, host.double (.ofNat n) = .ofNat n

/-! ### `loadOrCreateHostKey` -/

/-- The host key is created, in memory and on the disk. -/
def createHostKey (fresh : Vector UInt8 32) (files : PassphraseFiles) :
    Except PassphraseFailure Bytes × PassphraseFiles :=
  match files.hostKey.atomicWrite fresh.toList with
  | .error e => (.error (.node e), files)
  | .ok hostKey => (.ok fresh.toList, { files with hostKey })

def loadOrCreateHostKey (fresh : Vector UInt8 32) (files : PassphraseFiles) :
    Except PassphraseFailure Bytes × PassphraseFiles :=
  match files.hostKey.readFile with
  -- a key of another length is replaced, as one that is missing is created
  | .ok raw => if raw.length = HOST_KEY_LENGTH then (.ok raw, files) else createHostKey fresh files
  | .error e => if e.code = some (js "ENOENT") then createHostKey fresh files else (.error (.node e), files)

/-! ### `store` -/

/-- The arguments of `store`, and what it draws -/
structure StoreInputs where
  passphrase : JsString
  hostKey : Vector UInt8 32
  salt : Vector UInt8 16
  iv : Vector UInt8 12

/-- `StoredBlobV1` -/
def blobValue (salt iv tag ciphertext : Bytes) : JsValue :=
  .obj [(js "version", .num (.ofNat BLOB_VERSION)), (js "kdf", .str (js "pbkdf2-sha256")),
    (js "iterations", .num (.ofNat KDF_ITERATIONS)), (js "salt", .str (hexText salt)), (js "iv", .str (hexText iv)),
    (js "tag", .str (hexText tag)), (js "ciphertext", .str (hexText ciphertext))]

namespace PassphraseHost

variable (host : PassphraseHost)

/-- What `passphrase.enc` is given to hold -/
def sealBlob (input : StoreInputs) (derived : Vector UInt8 32) : Bytes :=
  let (ciphertext, tag) := host.encrypt derived input.iv (encodeUtf8 input.passphrase)
  encodeUtf8 (jsonText (blobValue input.salt.toList input.iv.toList tag ciphertext))

def store (input : StoreInputs) (files : PassphraseFiles) : Except PassphraseFailure Unit × PassphraseFiles :=
  match loadOrCreateHostKey input.hostKey files with
  | (.error e, files) => (.error e, files)
  | (.ok hostKey, files) =>
    match host.pbkdf2Sync hostKey input.salt.toList (.num (.ofNat KDF_ITERATIONS)) with
    | .error e => (.error (.node e), files)
    | .ok derived =>
      match files.blob.atomicWrite (host.sealBlob input derived) with
      | .error e => (.error (.node e), files)
      | .ok blob => (.ok (), { files with blob })

/-! ### `decryptStored` -/

/-- The part before the host key is read -/
def parseBlob (raw : JsString) : Except PassphraseFailure JsValue :=
  match parseLine host.double raw with
  | none => .error (.unavailable (js "passphrase.enc is malformed JSON: " ++ host.syntaxMessage raw))
  | some parsed => do
    let version ← (readProperty parsed (js "version")).mapError .typeError
    let kdf := property (js "kdf") parsed
    match version, kdf with
    | .num n, .str name =>
      if n.strictEq (.ofNat BLOB_VERSION) = true ∧ name = js "pbkdf2-sha256" then pure parsed
      else unsupported version kdf
    | _, _ => unsupported version kdf
where
  unsupported (version kdf : JsValue) : Except PassphraseFailure JsValue := do
    let versionText ← (inTemplate version).mapError .typeError
    let kdfText ← (inTemplate kdf).mapError .typeError
    .error (.unavailable (js "unsupported passphrase blob version=" ++ versionText ++ js " kdf=" ++ kdfText))

/-- `Buffer.from(v, 'hex')` -/
def hexBuffer : JsValue → Except PassphraseFailure Bytes
  | .str s => .ok (bufferFromHex s)
  | v => (host.bufferFrom v).mapError .node

/-- The part after the host key is read -/
def openBlob (parsed : JsValue) (hostKey : Bytes) : Except PassphraseFailure JsString := do
  let salt ← host.hexBuffer (property (js "salt") parsed)
  let iv ← host.hexBuffer (property (js "iv") parsed)
  let tag ← host.hexBuffer (property (js "tag") parsed)
  let ciphertext ← host.hexBuffer (property (js "ciphertext") parsed)
  let derived ← (host.pbkdf2Sync hostKey salt (property (js "iterations") parsed)).mapError .node
  let out ← (host.decrypt derived iv tag ciphertext).mapError .node
  pure (decodeUtf8 out)

def decryptStored (fresh : Vector UInt8 32) (files : PassphraseFiles) :
    Except PassphraseFailure JsString × PassphraseFiles :=
  match files.blob.readFile with
  | .error e => (.error (.node e), files)
  | .ok raw =>
    match host.parseBlob (decodeUtf8 raw) with
    | .error e => (.error e, files)
    | .ok parsed =>
      -- a key that is created here is not the one that the blob was encrypted under
      match loadOrCreateHostKey fresh files with
      | (.error e, files) => (.error e, files)
      | (.ok hostKey, files) => (host.openBlob parsed hostKey, files)

end PassphraseHost

/-! ### `get` -/

inductive PassphraseSource
  | env
  | stored
  | prompt
deriving DecidableEq

structure PassphraseResult where
  passphrase : JsString
  source : PassphraseSource
deriving DecidableEq

/-- `cache` and `cachedSource`, which are set and dropped together -/
structure CachedPassphrase where
  cache : Bytes
  cachedSource : PassphraseSource

def CachedPassphrase.result (c : CachedPassphrase) : PassphraseResult := ⟨decodeUtf8 c.cache, c.cachedSource⟩

def PassphraseResult.cached (r : PassphraseResult) : CachedPassphrase := ⟨encodeUtf8 r.passphrase, r.source⟩

/-- Whether `stdin` is a terminal, what its user answers, and the host key that is drawn if one is needed -/
structure GetInputs where
  isTTY : Bool
  prompted : Except PassphraseFailure JsString
  hostKey : Vector UInt8 32

def passphraseUnavailable : PassphraseFailure :=
  .unavailable (js "CA passphrase is unavailable: no env var, no stored blob, and stdin is not a TTY")

namespace PassphraseHost

variable (host : PassphraseHost)

/-- `get` with nothing in the cache -/
def resolvePassphrase (env : Option JsString) (input : GetInputs) (files : PassphraseFiles) :
    Except PassphraseFailure PassphraseResult × PassphraseFiles :=
  match env.filter (· ≠ []) with
  | some fromEnv => (.ok ⟨fromEnv, .env⟩, files)
  | none =>
    if files.blob.fileExists then
      match host.decryptStored input.hostKey files with
      | (.error e, files) => (.error e, files)
      | (.ok decrypted, files) => (.ok ⟨decrypted, .stored⟩, files)
    else if input.isTTY then (input.prompted.map (⟨·, .prompt⟩), files)
    else (.error passphraseUnavailable, files)

/-- The answer, the files and the cache -/
def get (env : Option JsString) (input : GetInputs) (cache : Option CachedPassphrase) (files : PassphraseFiles) :
    Except PassphraseFailure PassphraseResult × PassphraseFiles × Option CachedPassphrase :=
  match cache with
  | some c => (.ok c.result, files, some c)
  | none =>
    match host.resolvePassphrase env input files with
    | (.error e, files) => (.error e, files, none)
    | (.ok r, files) => (.ok r, files, some r.cached)

end PassphraseHost

/-! ### Providers of one directory -/

/-- The files, the cache of every provider, and the passphrase that was stored last -/
structure PassphraseState where
  files : PassphraseFiles
  caches : ℕ → Option CachedPassphrase
  stored : Option JsString

def PassphraseState.empty : PassphraseState := ⟨⟨.absent, .absent⟩, fun _ => none, none⟩

/-- A call of a provider, or files that are no longer what they were. `store` uses nothing of its provider. -/
inductive PassphraseEvent
  | store (input : StoreInputs)
  | get (provider : ℕ) (input : GetInputs)
  | clear (provider : ℕ)
  | damage (files : PassphraseFiles)

def passphraseStore (host : PassphraseHost) (env : ℕ → Option JsString) :
    Automaton PassphraseState PassphraseEvent where
  allowed _ _ := True
  next s e :=
    match e with
    | .store input =>
      match host.store input s.files with
      | (.error _, files) => { s with files }
      | (.ok (), files) => { s with files, stored := some input.passphrase }
    | .get provider input =>
      let (_, files, cache) := host.get (env provider) input (s.caches provider) s.files
      { s with files, caches := Function.update s.caches provider cache }
    | .clear provider => { s with caches := Function.update s.caches provider none }
    | .damage files => { s with files }

/-! ### The host key -/

/-- There is no host key, or one of another length. -/
def StoredFile.NoKey (f : StoredFile) : Prop :=
  match f.readFile with
  | .ok raw => raw.length ≠ HOST_KEY_LENGTH
  | .error e => e.code = some (js "ENOENT")

theorem contents_of_readFile {f : StoredFile} {raw : Bytes} (h : f.readFile = .ok raw) : f = .contents raw := by
  cases f with
  | contents bytes => rw [Except.ok.inj h]
  | absent => cases h
  | unreadable => cases h

/-- Only what cannot be read may withstand a write. -/
theorem atomicWrite_cases (f : StoredFile) (bytes : Bytes) : f.atomicWrite bytes = .ok (.contents bytes) ∨
    (∃ e, f.atomicWrite bytes = .error e) ∧ ∀ raw, f ≠ .contents raw := by
  cases f with
  | absent => exact .inl rfl
  | contents raw => exact .inl rfl
  | unreadable e replaced =>
    cases replaced with
    | error e => exact .inr ⟨⟨e, rfl⟩, nofun⟩
    | ok => exact .inl rfl

theorem createHostKey_cases (fresh : Vector UInt8 32) (files : PassphraseFiles) :
    createHostKey fresh files = (.ok fresh.toList, { files with hostKey := .contents fresh.toList }) ∨
      ∃ e, createHostKey fresh files = (.error e, files) := by
  unfold createHostKey
  obtain hwrite | ⟨⟨e, hwrite⟩, -⟩ := atomicWrite_cases files.hostKey fresh.toList
  · rw [hwrite]
    exact .inl rfl
  · rw [hwrite]
    exact .inr ⟨_, rfl⟩

/-- The host key on the disk is taken if there is one, and only otherwise is one put there. -/
theorem loadOrCreateHostKey_cases (fresh : Vector UInt8 32) (files : PassphraseFiles) :
    (∃ raw, files.hostKey = .contents raw ∧ raw.length = HOST_KEY_LENGTH ∧
      loadOrCreateHostKey fresh files = (.ok raw, files)) ∨
    (files.hostKey.NoKey ∧
      loadOrCreateHostKey fresh files = (.ok fresh.toList, { files with hostKey := .contents fresh.toList })) ∨
    ∃ e, loadOrCreateHostKey fresh files = (.error e, files) := by
  unfold loadOrCreateHostKey StoredFile.NoKey
  cases hread : files.hostKey.readFile with
  | ok raw =>
    simp only
    split_ifs with hlength
    · exact .inl ⟨raw, contents_of_readFile hread, hlength, rfl⟩
    · obtain hcreated | hfailed := createHostKey_cases fresh files
      · exact .inr (.inl ⟨hlength, hcreated⟩)
      · exact .inr (.inr hfailed)
  | error e =>
    simp only
    split_ifs with hcode
    · obtain hcreated | hfailed := createHostKey_cases fresh files
      · exact .inr (.inl ⟨hcode, hcreated⟩)
      · exact .inr (.inr hfailed)
    · exact .inr (.inr ⟨_, rfl⟩)

/-! ### Reading a blob back -/

section Blobs

variable {host : PassphraseHost} {raw key : Bytes} {fresh : Vector UInt8 32} {files : PassphraseFiles} {p : JsString}

/-- What a blob gives under a host key -/
def PassphraseHost.openFile (host : PassphraseHost) (raw key : Bytes) : Except PassphraseFailure JsString := do
  let parsed ← host.parseBlob (decodeUtf8 raw)
  host.openBlob parsed key

/-- `host.key` decrypts `passphrase.enc` to a passphrase. -/
def Decrypts (host : PassphraseHost) (files : PassphraseFiles) (p : JsString) : Prop :=
  ∃ key raw, files = ⟨.contents key, .contents raw⟩ ∧ key.length = HOST_KEY_LENGTH ∧ host.openFile raw key = .ok p

theorem Decrypts.unique {p' : JsString} (h : Decrypts host files p) (h' : Decrypts host files p') : p = p' := by
  obtain ⟨key, raw, rfl, -, hopen⟩ := h
  obtain ⟨key', raw', hfiles, -, hopen'⟩ := h'
  obtain ⟨hkey, hraw⟩ := PassphraseFiles.mk.inj hfiles
  obtain rfl := StoredFile.contents.inj hkey
  obtain rfl := StoredFile.contents.inj hraw
  exact Except.ok.inj (hopen.symm.trans hopen')

theorem Decrypts.hasKey (h : Decrypts host files p) : ¬files.hostKey.NoKey := by
  obtain ⟨key, raw, rfl, hlength, -⟩ := h
  exact fun hnone => hnone hlength

theorem hexBuffer_hexText (host : PassphraseHost) {v : JsValue} {bytes : Bytes} (h : v = .str (hexText bytes)) :
    host.hexBuffer v = .ok bytes := by
  rw [h]
  exact congrArg Except.ok (bufferFromHex_hexText bytes)

theorem openBlob_blob {salt iv tag ciphertext out : Bytes} {derived : Vector UInt8 32}
    (hderived : host.pbkdf2Sync key salt (.num (.ofNat KDF_ITERATIONS)) = .ok derived)
    (hout : host.decrypt derived iv tag ciphertext = .ok out) :
    host.openBlob (blobValue salt iv tag ciphertext) key = .ok (decodeUtf8 out) := by
  refine LiveValue.bind_ok_iff.mpr ⟨salt, hexBuffer_hexText host rfl, ?_⟩
  refine LiveValue.bind_ok_iff.mpr ⟨iv, hexBuffer_hexText host rfl, ?_⟩
  refine LiveValue.bind_ok_iff.mpr ⟨tag, hexBuffer_hexText host rfl, ?_⟩
  refine LiveValue.bind_ok_iff.mpr ⟨ciphertext, hexBuffer_hexText host rfl, ?_⟩
  refine LiveValue.bind_ok_iff.mpr ⟨derived, congrArg (Except.mapError _) hderived, ?_⟩
  exact LiveValue.bind_ok_iff.mpr ⟨out, congrArg (Except.mapError _) hout, rfl⟩

theorem parseLine_blob (hhost : host.Deciphers) (salt iv tag ciphertext : Bytes) :
    parseLine host.double (jsonText (blobValue salt iv tag ciphertext)) = some (blobValue salt iv tag ciphertext) := by
  have hkeys : OwnOrder [js "version", js "kdf", js "iterations", js "salt", js "iv", js "tag", js "ciphertext"] := by
    decide
  have hjson : (blobValue salt iv tag ciphertext).isJson = true := by
    simp only [blobValue, JsValue.isJson, fieldsJson, List.map_cons, List.map_nil, hkeys, decide_true, JsNumber.ofNat,
      JsNumber.isFinite, Bool.and_true]
  have hread (n : ℕ) (hn : n ≤ 2^53) :
      readNumbers host.double (JsValue.num (.ofNat n)).posZero = .num (.ofNat n) := by
    rw [posZero_ofNat]
    exact congrArg JsValue.num (hhost.doubles n hn)
  calc parseLine host.double (jsonText (blobValue salt iv tag ciphertext))
      = some (.obj [(js "version", readNumbers host.double (JsValue.num (.ofNat BLOB_VERSION)).posZero),
          (js "kdf", .str (js "pbkdf2-sha256")),
          (js "iterations", readNumbers host.double (JsValue.num (.ofNat KDF_ITERATIONS)).posZero),
          (js "salt", .str (hexText salt)), (js "iv", .str (hexText iv)), (js "tag", .str (hexText tag)),
          (js "ciphertext", .str (hexText ciphertext))]) := by
        rw [parseLine, jsonParse_jsonText _ hjson]
        rfl
    _ = some (blobValue salt iv tag ciphertext) := by
        rw [hread BLOB_VERSION (by decide), hread KDF_ITERATIONS (by decide)]
        rfl

/-- What is stored under a host key is read back under it, as UTF-8 keeps it. -/
theorem openFile_sealBlob (hhost : host.Deciphers) {input : StoreInputs} {derived : Vector UInt8 32}
    (hderived : host.pbkdf2Sync key input.salt.toList (.num (.ofNat KDF_ITERATIONS)) = .ok derived) :
    host.openFile (host.sealBlob input derived) key = .ok (decodeUtf8 (encodeUtf8 input.passphrase)) := by
  refine LiveValue.bind_ok_iff.mpr ⟨_, ?_, openBlob_blob hderived (hhost.decrypts derived input.iv _)⟩
  unfold PassphraseHost.sealBlob PassphraseHost.parseBlob
  rw [decodeUtf8_encodeUtf8 (jsonText_paired _), parseLine_blob hhost]
  rfl

theorem Decrypts.decryptStored (h : Decrypts host files p) (fresh : Vector UInt8 32) :
    host.decryptStored fresh files = (.ok p, files) := by
  obtain ⟨key, raw, rfl, hlength, hopen⟩ := h
  obtain ⟨parsed, hparsed, hp⟩ := LiveValue.bind_ok_iff.mp hopen
  have hload : loadOrCreateHostKey fresh ⟨.contents key, .contents raw⟩ = (.ok key, ⟨.contents key, .contents raw⟩) :=
    if_pos hlength
  unfold PassphraseHost.decryptStored
  simp only [StoredFile.readFile, hparsed, hload, hp]

/-- Only a host key that is not there is put there, and nothing else is changed. -/
theorem decryptStored_files (host : PassphraseHost) (fresh : Vector UInt8 32) (files : PassphraseFiles) :
    (host.decryptStored fresh files).2 = files ∨
      files.hostKey.NoKey ∧ (host.decryptStored fresh files).2 = { files with hostKey := .contents fresh.toList } := by
  unfold PassphraseHost.decryptStored
  cases files.blob.readFile with
  | error e => exact .inl rfl
  | ok raw =>
    simp only
    cases host.parseBlob (decodeUtf8 raw) with
    | error e => exact .inl rfl
    | ok parsed =>
      obtain ⟨key, -, -, hload⟩ | ⟨hnone, hload⟩ | ⟨e, hload⟩ := loadOrCreateHostKey_cases fresh files
      · rw [hload]
        exact .inl rfl
      · rw [hload]
        exact .inr ⟨hnone, rfl⟩
      · rw [hload]
        exact .inl rfl

theorem decryptStored_ok (h : (host.decryptStored fresh files).1 = .ok p) :
    Decrypts host (host.decryptStored fresh files).2 p := by
  unfold PassphraseHost.decryptStored at h ⊢
  cases hread : files.blob.readFile with
  | error e =>
    rw [hread] at h
    cases h
  | ok raw =>
    rw [hread] at h
    have hblob : files = ⟨files.hostKey, .contents raw⟩ := by rw [← contents_of_readFile hread]
    simp only at h ⊢
    cases hparse : host.parseBlob (decodeUtf8 raw) with
    | error e =>
      rw [hparse] at h
      cases h
    | ok parsed =>
      rw [hparse] at h
      have hopen (key : Bytes) (hp : host.openBlob parsed key = .ok p) : host.openFile raw key = .ok p :=
        LiveValue.bind_ok_iff.mpr ⟨parsed, hparse, hp⟩
      obtain ⟨key, hkey, hlength, hload⟩ | ⟨-, hload⟩ | ⟨e, hload⟩ := loadOrCreateHostKey_cases fresh files
      · rw [hload] at h ⊢
        exact ⟨key, raw, by rw [hblob, hkey], hlength, hopen key h⟩
      · -- the key that was drawn is on the disk by now
        rw [hload] at h ⊢
        exact ⟨fresh.toList, raw, by rw [hblob], Vector.length_toList, hopen _ h⟩
      · rw [hload] at h
        cases h

/-- A store that resolves leaves files that decrypt to the passphrase; one that fails does not put another host key
beside a blob that can be read. -/
def StoreEnds (host : PassphraseHost) (input : StoreInputs) (files : PassphraseFiles)
    (out : Except PassphraseFailure Unit × PassphraseFiles) : Prop :=
  match out.1 with
  | .ok () => Decrypts host out.2 (decodeUtf8 (encodeUtf8 input.passphrase))
  | .error _ => out.2 = files ∨ ∀ raw, out.2.blob ≠ .contents raw

/-- The blob is sealed under the host key that has been loaded. -/
theorem storeEnds_loaded (hhost : host.Deciphers) {input : StoreInputs} {loaded : PassphraseFiles}
    (hkey : loaded.hostKey = .contents key) (hlength : key.length = HOST_KEY_LENGTH)
    (hload : loadOrCreateHostKey input.hostKey files = (.ok key, loaded)) :
    StoreEnds host input files (host.store input files) := by
  obtain ⟨derived, hderived⟩ := hhost.derives key input.salt.toList
  unfold PassphraseHost.store
  simp only [hload, hderived]
  obtain hwrite | ⟨⟨e, hwrite⟩, hblob⟩ := atomicWrite_cases loaded.blob (host.sealBlob input derived)
  · rw [hwrite, hkey]
    exact ⟨key, host.sealBlob input derived, rfl, hlength, openFile_sealBlob hhost hderived⟩
  · -- a blob that cannot be replaced cannot be read either
    rw [hwrite]
    exact .inr hblob

theorem store_ends (hhost : host.Deciphers) (input : StoreInputs) (files : PassphraseFiles) :
    StoreEnds host input files (host.store input files) := by
  obtain ⟨key, hkey, hlength, hload⟩ | ⟨-, hload⟩ | ⟨e, hload⟩ := loadOrCreateHostKey_cases input.hostKey files
  · exact storeEnds_loaded hhost hkey hlength hload
  · exact storeEnds_loaded hhost rfl Vector.length_toList hload
  · unfold PassphraseHost.store
    rw [hload]
    exact .inl rfl

end Blobs

/-! ### What a get comes to -/

section Gets

variable {host : PassphraseHost} {env : Option JsString} {input : GetInputs} {files : PassphraseFiles}
  {cache : Option CachedPassphrase} {r : PassphraseResult}

/-- There is no passphrase in the environment. -/
def NoEnvPassphrase (env : Option JsString) : Prop := env.filter (· ≠ []) = none

/-- Without a cache and the environment, an answer is what the blob gives under the host key that is on the disk
afterwards, or what was typed where there is no blob. -/
theorem resolvePassphrase_ok (henv : NoEnvPassphrase env) (h : (host.resolvePassphrase env input files).1 = .ok r) :
    (r.source = .stored ∧ Decrypts host (host.resolvePassphrase env input files).2 r.passphrase) ∨
    (r.source = .prompt ∧ files.blob = .absent ∧ input.isTTY = true ∧ input.prompted = .ok r.passphrase) := by
  unfold PassphraseHost.resolvePassphrase at h ⊢
  rw [henv] at h ⊢
  simp only at h ⊢
  split_ifs at h ⊢ with hblob htty
  · have hdecrypted (p : JsString) (hp : (host.decryptStored input.hostKey files).1 = .ok p) := decryptStored_ok hp
    generalize host.decryptStored input.hostKey files = out at h hdecrypted ⊢
    obtain ⟨e | p, files'⟩ := out
    · cases h
    · obtain rfl := Except.ok.inj h
      exact .inl ⟨rfl, hdecrypted p rfl⟩
  · right
    cases hprompted : input.prompted with
    | error e =>
      rw [hprompted] at h
      cases h
    | ok p =>
      rw [hprompted] at h
      obtain rfl := Except.ok.inj h
      refine ⟨rfl, ?_, htty, rfl⟩
      cases hfile : files.blob with
      | absent => rfl
      | _ =>
        rw [hfile] at hblob
        exact absurd rfl hblob

theorem resolvePassphrase_files (host : PassphraseHost) (env : Option JsString) (input : GetInputs)
    (files : PassphraseFiles) : (host.resolvePassphrase env input files).2 = files ∨
      files.hostKey.NoKey ∧
        (host.resolvePassphrase env input files).2 = { files with hostKey := .contents input.hostKey.toList } := by
  unfold PassphraseHost.resolvePassphrase
  cases env.filter (· ≠ []) with
  | some fromEnv => exact .inl rfl
  | none =>
    simp only
    split_ifs
    · have hfiles := decryptStored_files host input.hostKey files
      generalize host.decryptStored input.hostKey files = out at hfiles ⊢
      obtain ⟨e | p, files'⟩ := out
      · exact hfiles
      · exact hfiles
    · exact .inl rfl
    · exact .inl rfl

theorem Decrypts.resolvePassphrase {p : JsString} (h : Decrypts host files p) (henv : NoEnvPassphrase env)
    (input : GetInputs) : host.resolvePassphrase env input files = (.ok ⟨p, .stored⟩, files) := by
  have hexists : files.blob.fileExists = true := by
    obtain ⟨key, raw, rfl, -, -⟩ := h
    rfl
  unfold PassphraseHost.resolvePassphrase
  rw [henv, h.decryptStored]
  exact if_pos hexists

/-- A get with nothing in its cache keeps what it has answered. -/
theorem get_none (host : PassphraseHost) (env : Option JsString) (input : GetInputs) (files : PassphraseFiles) :
    (host.get env input none files).1 = (host.resolvePassphrase env input files).1 ∧
      (host.get env input none files).2.1 = (host.resolvePassphrase env input files).2 ∧
      ∀ r, (host.resolvePassphrase env input files).1 = .ok r →
        (host.get env input none files).2.2 = some r.cached := by
  unfold PassphraseHost.get
  generalize host.resolvePassphrase env input files = out
  obtain ⟨e | r, files'⟩ := out
  · exact ⟨rfl, rfl, nofun⟩
  · refine ⟨rfl, rfl, fun r' hr => ?_⟩
    rw [Except.ok.inj hr]

end Gets

/-! ### Any calls and any damage -/

section Runs

variable {host : PassphraseHost} {env : ℕ → Option JsString} {s t : PassphraseState} {e : PassphraseEvent}
  {provider : ℕ} {input : GetInputs} {r : PassphraseResult}

/-- What a get of a provider comes to in a state -/
def PassphraseState.answer (host : PassphraseHost) (env : ℕ → Option JsString) (s : PassphraseState) (provider : ℕ)
    (input : GetInputs) : Except PassphraseFailure PassphraseResult :=
  (host.get (env provider) input (s.caches provider) s.files).1

/-- `host.key` does not decrypt `passphrase.enc` to another passphrase than the one that was stored last. -/
def Genuine (host : PassphraseHost) (files : PassphraseFiles) (stored : Option JsString) : Prop :=
  ∀ p, Decrypts host files p → ∃ q, stored = some q ∧ p = decodeUtf8 (encodeUtf8 q)

/-- Neither damage nor a host key that is drawn where there is none decrypts `passphrase.enc` to another passphrase. -/
def UnforgedFiles (host : PassphraseHost) (s : PassphraseState) : PassphraseEvent → Prop
  | .get provider input => s.caches provider = none → s.files.hostKey.NoKey →
    Genuine host { s.files with hostKey := .contents input.hostKey.toList } s.stored
  | .damage files => Genuine host files s.stored
  | _ => True

/-- The calls that leave what is stored -/
def PassphraseEvent.Reads : PassphraseEvent → Prop
  | .get _ _ => True
  | .clear _ => True
  | _ => False

/-- A get with nothing in its cache answers with what was stored last, or with what is typed where nothing is; it goes
on to answer so until it is cleared; what a store has put there can be read back as long as nothing is stored or
damaged; and no get changes the blob, or a host key that there is. -/
structure PassphraseLaws (host : PassphraseHost) (env : ℕ → Option JsString) (s : PassphraseState) : Prop where
  fresh : ∀ {provider input r}, s.caches provider = none → UnforgedFiles host s (.get provider input) →
    s.answer host env provider input = .ok r →
    (r.source = .stored ∧ ∃ q, s.stored = some q ∧ r.passphrase = decodeUtf8 (encodeUtf8 q)) ∨
      (r.source = .prompt ∧ s.files.blob = .absent ∧ input.isTTY = true ∧ input.prompted = .ok r.passphrase)
  remembered : ∀ {provider input r t}, s.answer host env provider input = .ok r →
    (passphraseStore host env).Reaches (fun _ e => e ≠ .clear provider)
      ((passphraseStore host env).next s (.get provider input)) t →
    ∀ input', t.answer host env provider input' = .ok ⟨decodeUtf8 (encodeUtf8 r.passphrase), r.source⟩
  reread : ∀ {input t provider}, (host.store input s.files).1 = .ok () →
    (passphraseStore host env).Reaches (fun _ e => e.Reads) ((passphraseStore host env).next s (.store input)) t →
    t.caches provider = none →
    ∀ input', t.answer host env provider input' = .ok ⟨decodeUtf8 (encodeUtf8 input.passphrase), .stored⟩
  kept : ∀ provider input, ((passphraseStore host env).next s (.get provider input)).files.blob = s.files.blob ∧
    (¬s.files.hostKey.NoKey → ((passphraseStore host env).next s (.get provider input)).files = s.files)

theorem files_get (host : PassphraseHost) (env : ℕ → Option JsString) (provider : ℕ) (input : GetInputs)
    (s : PassphraseState) :
    ((passphraseStore host env).next s (.get provider input)).files = s.files ∨
      s.caches provider = none ∧ s.files.hostKey.NoKey ∧
        ((passphraseStore host env).next s (.get provider input)).files =
          { s.files with hostKey := .contents input.hostKey.toList } := by
  change (host.get _ input (s.caches provider) s.files).2.1 = _ ∨ _ ∧ _ ∧ (host.get _ _ _ _).2.1 = _
  cases s.caches provider with
  | some c => exact .inl rfl
  | none =>
    rw [(get_none host (env provider) input s.files).2.1]
    obtain hsame | hcreated := resolvePassphrase_files host (env provider) input s.files
    · exact .inl hsame
    · exact .inr ⟨rfl, hcreated⟩

theorem answer_cached {c : CachedPassphrase} (h : s.caches provider = some c) :
    s.answer host env provider input = .ok c.result := by
  unfold PassphraseState.answer
  rw [h]
  rfl

theorem answer_none (h : s.caches provider = none) : s.answer host env provider input =
    (host.resolvePassphrase (env provider) input s.files).1 := by
  unfold PassphraseState.answer
  rw [h]
  exact (get_none host (env provider) input s.files).1

theorem files_get_none (h : s.caches provider = none) :
    ((passphraseStore host env).next s (.get provider input)).files =
      (host.resolvePassphrase (env provider) input s.files).2 := by
  change (host.get _ input (s.caches provider) s.files).2.1 = _
  rw [h]
  exact (get_none host (env provider) input s.files).2.1

/-- What a get has answered is in its cache, as UTF-8 keeps it. -/
theorem cached_of_answer (h : s.answer host env provider input = .ok r) :
    ∃ c, ((passphraseStore host env).next s (.get provider input)).caches provider = some c ∧
      c.result = ⟨decodeUtf8 (encodeUtf8 r.passphrase), r.source⟩ := by
  change ∃ c, Function.update s.caches provider
    (host.get (env provider) input (s.caches provider) s.files).2.2 provider = some c ∧ _
  rw [Function.update_self]
  cases hcache : s.caches provider with
  | some c =>
    obtain rfl := Except.ok.inj ((answer_cached hcache).symm.trans h)
    -- a text that has come out of a buffer has no lone surrogates to lose
    have hpaired : Paired (decodeUtf8 c.cache) := ⟨_, rfl⟩
    refine ⟨c, rfl, ?_⟩
    change c.result = ⟨decodeUtf8 (encodeUtf8 (decodeUtf8 c.cache)), _⟩
    rw [decodeUtf8_encodeUtf8 hpaired]
    rfl
  | none =>
    rw [answer_none hcache] at h
    exact ⟨r.cached, (get_none host (env provider) input s.files).2.2 r h, rfl⟩

/-- Only a `clear` empties a cache. -/
theorem cached_next {c : CachedPassphrase} (h : s.caches provider = some c) (he : e ≠ .clear provider) :
    ((passphraseStore host env).next s e).caches provider = some c := by
  cases e with
  | store input =>
    simp only [passphraseStore]
    split
    · exact h
    · exact h
  | get other input =>
    change Function.update s.caches other (host.get (env other) input (s.caches other) s.files).2.2 provider = _
    by_cases hother : provider = other
    · rw [← hother, Function.update_self, h]
      rfl
    · rw [Function.update_of_ne hother, h]
  | clear other =>
    have hother : provider ≠ other := fun h => he (by rw [h])
    exact (Function.update_of_ne hother _ _).trans h
  | damage files => exact h

theorem genuine_store (hhost : host.Deciphers) (h : Genuine host s.files s.stored) (input : StoreInputs) :
    Genuine host ((passphraseStore host env).next s (.store input)).files
      ((passphraseStore host env).next s (.store input)).stored := by
  have hends := store_ends hhost input s.files
  simp only [passphraseStore]
  generalize host.store input s.files = out at hends ⊢
  obtain ⟨e | _, files⟩ := out
  · obtain hsame | hblob := hends
    · change files = s.files at hsame
      rw [hsame]
      exact h
    · intro p ⟨key, raw, hfiles, _⟩
      exact absurd (congrArg PassphraseFiles.blob hfiles) (hblob raw)
  · -- what the files decrypt to is what has been sealed just now
    intro p hp
    exact ⟨input.passphrase, rfl, hp.unique hends⟩

theorem genuine_get (h : Genuine host s.files s.stored) (hunforged : UnforgedFiles host s (.get provider input)) :
    Genuine host ((passphraseStore host env).next s (.get provider input)).files s.stored := by
  obtain hsame | ⟨hcache, hnone, hcreated⟩ := files_get host env provider input s
  · rw [hsame]
    exact h
  · rw [hcreated]
    exact hunforged hcache hnone

theorem genuine_reached (hhost : host.Deciphers)
    (h : (passphraseStore host env).Reaches (UnforgedFiles host) .empty s) : Genuine host s.files s.stored := by
  refine h.invariant (I := fun s => Genuine host s.files s.stored) (fun p ⟨key, raw, hfiles, _⟩ => ?_) ?_
  · cases (PassphraseFiles.mk.inj hfiles).1
  · intro s e hs _ hunforged
    cases e with
    | store input => exact genuine_store hhost hs input
    | get provider input => exact genuine_get hs hunforged
    | clear provider => exact hs
    | damage files => exact hunforged

theorem decrypts_next {p : JsString} (h : Decrypts host s.files p) (he : e.Reads) :
    Decrypts host ((passphraseStore host env).next s e).files p := by
  cases e with
  | store input => cases he
  | get provider input =>
    obtain hsame | ⟨-, hnone, -⟩ := files_get host env provider input s
    · rw [hsame]
      exact h
    · exact absurd hnone h.hasKey
  | clear provider => exact h
  | damage files => cases he

theorem answer_fresh (h : Genuine host s.files s.stored) (henv : NoEnvPassphrase (env provider))
    (hcache : s.caches provider = none) (hunforged : UnforgedFiles host s (.get provider input))
    (hanswer : s.answer host env provider input = .ok r) :
    (r.source = .stored ∧ ∃ q, s.stored = some q ∧ r.passphrase = decodeUtf8 (encodeUtf8 q)) ∨
      (r.source = .prompt ∧ s.files.blob = .absent ∧ input.isTTY = true ∧ input.prompted = .ok r.passphrase) := by
  rw [answer_none hcache] at hanswer
  obtain ⟨hsource, hdecrypts⟩ | hprompted := resolvePassphrase_ok henv hanswer
  · -- the invariant holds of the files after the get, whose key it has used
    rw [← files_get_none hcache] at hdecrypts
    exact .inl ⟨hsource, genuine_get h hunforged _ hdecrypts⟩
  · exact .inr hprompted

theorem answer_remembered (hanswer : s.answer host env provider input = .ok r)
    (h : (passphraseStore host env).Reaches (fun _ e => e ≠ .clear provider)
      ((passphraseStore host env).next s (.get provider input)) t) (input' : GetInputs) :
    t.answer host env provider input' = .ok ⟨decodeUtf8 (encodeUtf8 r.passphrase), r.source⟩ := by
  obtain ⟨c, hc, hresult⟩ := cached_of_answer hanswer
  have hkept : t.caches provider = some c :=
    h.invariant (I := fun s => s.caches provider = some c) hc fun s e hs _ he => cached_next hs he
  rw [answer_cached hkept, hresult]

theorem answer_reread (hhost : host.Deciphers) (henv : NoEnvPassphrase (env provider)) {stored : StoreInputs}
    (hstore : (host.store stored s.files).1 = .ok ())
    (h : (passphraseStore host env).Reaches (fun _ e => e.Reads) ((passphraseStore host env).next s (.store stored)) t)
    (hcache : t.caches provider = none) (input : GetInputs) :
    t.answer host env provider input = .ok ⟨decodeUtf8 (encodeUtf8 stored.passphrase), .stored⟩ := by
  have hstored : Decrypts host ((passphraseStore host env).next s (.store stored)).files
      (decodeUtf8 (encodeUtf8 stored.passphrase)) := by
    have hends := store_ends hhost stored s.files
    simp only [passphraseStore]
    generalize host.store stored s.files = out at hends hstore ⊢
    obtain ⟨e | _, files⟩ := out
    · cases hstore
    · exact hends
  have hdecrypts : Decrypts host t.files (decodeUtf8 (encodeUtf8 stored.passphrase)) :=
    h.invariant (I := fun s => Decrypts host s.files _) hstored fun s e hs _ he => decrypts_next hs he
  rw [answer_none hcache, hdecrypts.resolvePassphrase henv]

/-- No get changes the blob, or a host key that there is. -/
theorem files_kept (provider : ℕ) (input : GetInputs) (s : PassphraseState) :
    ((passphraseStore host env).next s (.get provider input)).files.blob = s.files.blob ∧
      (¬s.files.hostKey.NoKey → ((passphraseStore host env).next s (.get provider input)).files = s.files) := by
  obtain hsame | ⟨-, hnone, hcreated⟩ := files_get host env provider input s
  · rw [hsame]
    exact ⟨rfl, fun _ => rfl⟩
  · rw [hcreated]
    exact ⟨rfl, fun hkey => absurd hnone hkey⟩

theorem passphraseLaws_reached (hhost : host.Deciphers) (henv : ∀ provider, NoEnvPassphrase (env provider))
    (h : (passphraseStore host env).Reaches (UnforgedFiles host) .empty s) : PassphraseLaws host env s where
  fresh hcache hunforged hanswer := answer_fresh (genuine_reached hhost h) (henv _) hcache hunforged hanswer
  remembered hanswer hreaches := answer_remembered hanswer hreaches
  reread hstore hreaches hcache := answer_reread hhost (henv _) hstore hreaches hcache
  kept provider input := files_kept provider input s

/-- Every get answers with what was stored last or fails, and then leaves both files. -/
def ReturnsStored (host : PassphraseHost) (env : ℕ → Option JsString) (s : PassphraseState) : Prop :=
  ∀ provider input, match s.answer host env provider input with
    | .ok r => s.stored = some r.passphrase
    | .error _ => ((passphraseStore host env).next s (.get provider input)).files = s.files

end Runs

/-! ### Two providers -/

/-- A cipher whose tag is the key, and no more of a KDF than the host key -/
def tagHost : PassphraseHost where
  pbkdf2Sync hostKey _ _ := .ok (Vector.ofFn fun i => hostKey.getD i 0)
  encrypt key _ plain := (plain, key.toList)
  decrypt key _ tag ciphertext :=
    if tag = key.toList then .ok ciphertext
    else .error ⟨none, js "Unsupported state or unable to authenticate data"⟩
  bufferFrom _ := .error ⟨some (js "ERR_INVALID_ARG_TYPE"), js "The first argument must be of type string"⟩
  double d := .fin d
  syntaxMessage _ := js "Unexpected token"

theorem tagHost_deciphers : tagHost.Deciphers where
  derives _ _ := ⟨_, rfl⟩
  decrypts _ _ _ := if_pos rfl
  doubles _ _ := rfl

def noEnv (_ : ℕ) : Option JsString := none

def storing (passphrase : JsString) : StoreInputs := ⟨passphrase, .replicate 32 7, .replicate 16 5, .replicate 12 3⟩

def atTerminal : GetInputs := ⟨true, .ok (js "typed"), .replicate 32 9⟩

def hunterStored : PassphraseState :=
  (passphraseStore tagHost noEnv).next .empty (.store (storing (js "hunter2")))

/-- The host key has lost its bytes after the passphrase was stored. -/
theorem passphraseLaws_reached_truncated : PassphraseLaws tagHost noEnv
    ((passphraseStore tagHost noEnv).next hunterStored (.damage ⟨.contents [], hunterStored.files.blob⟩)) := by
  have hdamage : UnforgedFiles tagHost hunterStored (.damage ⟨.contents [], hunterStored.files.blob⟩) := by
    intro p ⟨key, raw, hfiles, hlength, _⟩
    obtain rfl := StoredFile.contents.inj (PassphraseFiles.mk.inj hfiles).1
    cases hlength
  have hpermits : (passphraseStore tagHost noEnv).Permits (UnforgedFiles tagHost) .empty
      [.store (storing (js "hunter2")), .damage ⟨.contents [], hunterStored.files.blob⟩] :=
    ⟨trivial, trivial, trivial, hdamage, trivial⟩
  exact passphraseLaws_reached tagHost_deciphers (fun _ => rfl) hpermits.reaches

/-- A provider goes on to answer with what was typed, when another passphrase has been stored since. -/
theorem returnsStored_fails : ¬∀ s, (passphraseStore tagHost noEnv).Reaches Automaton.anyEvent .empty s →
    ReturnsStored tagHost noEnv s := by
  intro h
  have hpermits : (passphraseStore tagHost noEnv).Permits Automaton.anyEvent .empty
      [.get 0 atTerminal, .store (storing (js "hunter2"))] := ⟨trivial, trivial, trivial, trivial, trivial⟩
  have hround : some (js "hunter2") = some (js "typed") := h _ hpermits.reaches 0 atTerminal
  exact absurd hround (by decide)

end Homelab
