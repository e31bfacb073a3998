import Homelab.CertAuthority
import Homelab.Consent

/-! The commands of `ADMIN_REQUIRED_COMMANDS` and the part of `runCli` that they run
through. Commander appears only by what it makes of a command line. -/
namespace Homelab
open Js Effect

inductive AdminCommand
  | consentRevoke (cidr : JsString) (json : Bool)
  | caInit (passphraseFile : Option JsString) (json : Bool)
  | caRotate (platformId : JsString) (json : Bool)
  | platformExec (platformId : JsString) (commandTokens : List JsString) (json : Bool)
  | inventoryRemove (platformId : JsString) (json yes : Bool)

structure AdminAuthContext where
  actor : JsString
  dataDir : JsString
  env : JsString → Option JsString

structure ExecResult where
  stdout : JsString
  stderr : JsString
  exitCode : JsNumber
  durationMs : JsNumber

/-- What connecting or running a command throws. -/
structure ConnectionError where
  name : JsString
  message : JsString
  code : Option JsString

def consentFileValue (consents : List JsValue) : JsValue :=
  .obj [(js "version", .str (js "1.0")), (js "consents", .arr consents)]

/-- What surrounds a run of the CLI. A refused file-system call is refused however often
it is made. `stat` and `readText` are about files outside the data directory. Reading back
what `dump` wrote finds as many consents as it was given. -/
structure CliHost extends CaHost where
  parse : List JsString → Except JsString AdminCommand
  env : JsString → Option JsString
  processEnv : JsString → Option JsString
  isAdmin : AdminAuthContext → Except Thrown Bool
  yamlLoad : JsString → Except JsString JsValue
  yamlDump : JsValue → Except JsString JsString
  validateInventory : JsValue → Option JsString
  stat : JsString → Except NodeError ℕ
  readText : JsString → Except NodeError JsString
  isTTY : Bool
  readPassphrase : Except NodeError JsString
  confirm : Except NodeError Bool
  connect : JsString → JsValue → Except ConnectionError Unit
  exec : JsString → JsString → Except ConnectionError ExecResult
  wallMs : JsNumber
  stack : Thrown → Option JsString
  dump_consents : ∀ consents text, yamlDump (consentFileValue consents) = .ok text →
    ∃ consents', yamlLoad text = .ok (consentFileValue consents') ∧ consents'.length = consents.length

/-! ### Admin authorization -/

def adminRequiredCommands : List JsString :=
  [js "consent revoke", js "ca init", js "ca rotate", js "platform exec", js "inventory remove"]

/-- The dotted name that the hook of a command's group checks. -/
def AdminCommand.name : AdminCommand → JsString
  | .consentRevoke .. => js "consent revoke"
  | .caInit .. => js "ca init"
  | .caRotate .. => js "ca rotate"
  | .platformExec .. => js "platform exec"
  | .inventoryRemove .. => js "inventory remove"

def buildAdminAuthContext (dataDir : JsString) (env : JsString → Option JsString) :
    AdminAuthContext :=
  ⟨(((env (js "HOMELAB_ACTOR")).or (env (js "USER"))).or (env (js "LOGNAME"))).getD (js "unknown"),
    dataDir, env⟩

/-- `text.split('\n')` -/
def splitLines (text : JsString) : List JsString := text.splitOn 0x0A

/-- `defaultAdminCheck`, given the text of `.admin-actors` if it can be read. -/
def defaultAdminCheck (actors : Option JsString) (ctx : AdminAuthContext) : Except Thrown Bool :=
  if (ctx.env (js "HOMELAB_ADMIN_TOKEN")).any fun token => token ≠ [] then .ok true
  else
    match actors with
    | none => .ok false
    | some raw => .ok ((splitLines raw).any fun line =>
        trim line ≠ [] && (trim line).head? ≠ some 0x23 && trim line = ctx.actor)

def adminRejectionMessage : JsString := js "Authorization required: admin role"

def enforceAdminIfRequired (h : CliHost) (commandName : JsString) : Cli Bool :=
  if commandName ∉ adminRequiredCommands then pure true
  else
    match h.isAdmin (buildAdminAuthContext h.dataDir h.env) with
    | .error e => throw e
    | .ok true => pure true
    | .ok false => do
      printErr (adminRejectionMessage ++ js "\n")
      pure false

/-! ### The files -/

def foundFile : Option JsString → Except NodeError JsString
  | some text => .ok text
  | none => .error .enoent

def rawFile (h : CliHost) (d : DataDir) (p : Place) : Except NodeError JsString :=
  match h.refuses (.readFile p) with
  | some e => .error e.toNodeError
  | none => foundFile (d.file p)

/-- `ConsentManager.loadFile` -/
def loadConsentFile (h : CliHost) (d : DataDir) : Except JsString (List JsValue) :=
  loadConsents h.yamlLoad ((rawFile h d .consent).mapError fun e => e.error)

/-- `InventoryManager.readFile` -/
def loadInventory (h : CliHost) (d : DataDir) : Except Thrown (List JsValue) :=
  match rawFile h d .inventory with
  | .error e => if e.error.code = some (js "ENOENT") then .ok [] else .error (.node e)
  | .ok raw =>
    match h.yamlLoad raw with
    | .error message => .error (.error (js "failed to parse inventory YAML: " ++ message))
    | .ok .null => .ok []
    | .ok .undefined => .ok []
    | .ok parsed =>
      match h.validateInventory parsed with
      | some errs => .error (.error (js "inventory failed schema validation: " ++ errs))
      | none =>
        match property (js "platforms") parsed with
        | .arr platforms => .ok platforms
        | _ => .error (.error (js "file.platforms is not iterable"))

def hasId (id : JsString) (platform : JsValue) : Bool :=
  match property (js "id") platform with
  | .str s => s = id
  | _ => false

/-- `InventoryManager.getPlatform` -/
def findPlatform (h : CliHost) (d : DataDir) (id : JsString) : Except Thrown (Option JsValue) :=
  (loadInventory h d).map fun platforms => platforms.find? (hasId id)

def getPlatform (h : CliHost) (id : JsString) : Cli (Option JsValue) := do
  let m ← get
  give (findPlatform h m.dir id)

/-- `InventoryManager.removePlatform` -/
def removePlatform (h : CliHost) (id : JsString) : Cli Unit := do
  let m ← get
  match loadInventory h m.dir with
  | .error e => throw e
  | .ok platforms =>
    if platforms.any (hasId id) then
      let file : JsValue :=
        .obj [(js "version", .str (js "1.0")), (js "platforms", .arr (platforms.eraseP (hasId id)))]
      match h.validateInventory file with
      | some errs => throw (.error (js "refusing to write invalid inventory: " ++ errs))
      | none =>
        match h.yamlDump file with
        | .error message => throw (.error message)
        | .ok text => atomicWriteFile h.refuses .inventory text

/-! ### `consent revoke` -/

def consentCidrIs (cidr : JsString) : JsValue → Bool
  | .str s => s = cidr
  | _ => false

/-- The entries that `revokeConsent` removes and those that it keeps. -/
def splitConsents (cidr : JsString) : List JsValue → Except JsString (List JsValue × List JsValue)
  | [] => .ok ([], [])
  | entry :: rest => do
    let value ← readProperty entry (js "cidr")
    let (removed, kept) ← splitConsents cidr rest
    if consentCidrIs cidr value then .ok (entry :: removed, kept) else .ok (removed, entry :: kept)

/-- What `revokeConsent` removes and the text that it writes, if it writes one. -/
def planRevoke (h : CliHost) (d : DataDir) (cidr : JsString) :
    Except JsString (List JsValue × Option JsString) :=
  if parseCidr cidr = none then .error (js "invalid CIDR: " ++ cidr)
  else do
    let consents ← loadConsentFile h d
    let (removed, kept) ← splitConsents cidr consents
    if removed = [] then .ok ([], none)
    else do
      let text ← h.yamlDump (consentFileValue kept)
      .ok (removed, some text)

def writePlan (h : CliHost) : Except JsString (List JsValue × Option JsString) → Cli ℕ
  | .error message => throw (.error message)
  | .ok (removed, none) => pure removed.length
  | .ok (removed, some text) => do
    atomicWriteFile h.refuses .consent text
    pure removed.length

/-- `ConsentManager.revokeConsent` -/
def revokeConsent (h : CliHost) (cidr : JsString) : Cli ℕ := do
  let m ← get
  writePlan h (planRevoke h m.dir cidr)

def reportRevoked (cidr : JsString) (json : Bool) (removed : ℕ) : Cli ℕ :=
  if removed = 0 then do
    if json then
      printOut (printJson (.obj [(js "ok", .bool false),
        (js "error", .str (js "no active consent for " ++ cidr)), (js "code", .str (js "NOT_FOUND"))]))
    else printErr (printError (js "no active consent for " ++ cidr))
    pure exitUsage
  else do
    if json then
      printOut (printJson (.obj [(js "revoked", .str cidr),
        (js "removed_count", .num (.ofNat removed))]))
    else printOut (js "Revoked consent for " ++ cidr ++ js ".\n")
    pure exitOk

/-- `runConsentRevoke` after the file is written, or after the error is printed. -/
def finishRevoke (cidr : JsString) (json : Bool) : Option ℕ → Cli ℕ
  | none => pure exitUsage
  | some removed => reportRevoked cidr json removed

def runConsentRevoke (h : CliHost) (cidr : JsString) (json : Bool) : Cli ℕ := do
  let removed ← tryCatch (some <$> revokeConsent h cidr) fun e => do
    printErr (printError (js "consent revoke failed: " ++ e.message))
    pure none
  finishRevoke cidr json removed

/-! ### `ca init` and `ca rotate` -/

/-- `raw.replace(/\r?\n$/, '')` -/
def stripLineEnd (raw : JsString) : JsString :=
  match raw.reverse with
  | 0x0A :: 0x0D :: rest => rest.reverse
  | 0x0A :: rest => rest.reverse
  | _ => raw

/-- Where `runCAInit` finds its passphrase: it answers a message and stops, it throws,
or it has one. -/
inductive Passphrase
  | refused (message : JsString)
  | throws (e : NodeError)
  | given (passphrase : JsString)

def octalText (n : ℕ) : JsString := digitsText (Nat.digits 8 n).reverse

def passphraseFromFile (h : CliHost) (path : JsString) : Passphrase :=
  match h.stat path with
  | .error e =>
    .refused (js "cannot stat passphrase file " ++ path ++ js ": " ++ e.error.message)
  | .ok stat =>
    let mode := stat%0o1000
    if mode ≠ 0o600 then
      .refused (js "passphrase file " ++ path ++ js " has mode " ++
        (if mode = 0 then js "0" else octalText mode) ++ js "; expected 0600")
    else
      match h.readText path with
      | .error e => .refused (js "cannot read passphrase file: " ++ e.error.message)
      | .ok raw => .given (stripLineEnd raw)

def initPassphrase (h : CliHost) : Option JsString → Passphrase
  | some path => passphraseFromFile h path
  | none =>
    if !h.isTTY then .refused (js "CA passphrase required: pass --passphrase-file or run interactively")
    else
      match h.readPassphrase with
      | .error e => .throws e
      | .ok passphrase => .given passphrase

def initFailed (json : Bool) : Thrown → Cli Bool
  | .ca .caAlreadyExists message => do
    if json then
      printOut (printJson (.obj [(js "ok", .bool false), (js "error", .str message),
        (js "code", .str (js "CA_ALREADY_EXISTS"))]))
    else printErr (printError (message ++ js " -- run `ca rotate` to issue new certs"))
    pure false
  | .ca _ message => do
    printErr (printError (js "CA init failed: " ++ message))
    pure false
  | e => throw e

def initReport (h : CliHost) (json : Bool) (done : Bool) : Cli ℕ :=
  if done then do
    if json then
      printOut (printJson (.obj [(js "ok", .bool true), (js "ca_dir", .str h.caDir)]))
    else printOut (js "CA initialized at " ++ h.caDir ++ js ".\n")
    pure exitOk
  else pure exitUsage

/-- `runCAInit` once it has a passphrase. -/
def initWith (h : CliHost) (passphrase : JsString) (json : Bool) : Cli ℕ := do
  let done ← tryCatch ((fun _ => true) <$> initializeCA h.toCaHost passphrase) (initFailed json)
  initReport h json done

def runCAInit (h : CliHost) (passphraseFile : Option JsString) (json : Bool) : Cli ℕ :=
  match initPassphrase h passphraseFile with
  | .refused message => do
    printErr (printError message)
    pure exitUsage
  | .throws e => throw (.node e)
  | .given passphrase =>
    if passphrase = [] then do
      printErr (printError (js "CA passphrase must not be empty"))
      pure exitUsage
    else initWith h passphrase json

def rotateFailed : Thrown → Cli (Option RotationResult)
  | .ca _ message => do
    printErr (printError (js "rotation failed: " ++ message))
    pure none
  | e => throw e

def rotateReport (platformId : JsString) (json : Bool) : Option RotationResult → Cli ℕ
  | none => pure exitUsage
  | some result => do
    if json then
      printOut (printJson (.obj [(js "ok", .bool true), (js "platform_id", .str platformId),
        (js "old_fingerprint", .str result.oldFingerprint),
        (js "new_fingerprint", .str result.newFingerprint),
        (js "revoked_at", .str result.revokedAt)]))
    else printOut (js "Rotated cert for " ++ platformId ++ js "; new fingerprint: " ++
      result.newFingerprint ++ js "\n")
    pure exitOk

/-- `runCARotate` once it has a platform and a passphrase. -/
def rotateWith (h : CliHost) (platformId passphrase : JsString) (json : Bool) : Cli ℕ := do
  let result ← tryCatch (some <$> rotateKey h.toCaHost platformId passphrase) rotateFailed
  rotateReport platformId json result

def caPassphraseEnv (h : CliHost) : JsString :=
  (h.processEnv (js "HOMELAB_CA_PASSPHRASE")).getD []

def runCARotate (h : CliHost) (platformId : JsString) (json : Bool) : Cli ℕ := do
  match ← getPlatform h platformId with
  | none => do
    printErr (printError (js "platform '" ++ platformId ++ js "' not in inventory"))
    pure exitUsage
  | some _ =>
    if caPassphraseEnv h = [] then do
      printErr (printError (js "CA rotation requires HOMELAB_CA_PASSPHRASE in the environment"))
      pure exitUsage
    else rotateWith h platformId (caPassphraseEnv h) json

/-! ### `platform exec` -/

def exitConnectFail : ℕ := 1

/-- `pool.getConnection` on a fresh pool; `loaded` is what the hook has put into it. -/
def getConnection (h : CliHost) (platformId : JsString) (loaded : Option JsValue) :
    Except ConnectionError Unit :=
  match loaded with
  | none => .error ⟨js "Error",
      js "platform '" ++ platformId ++ js "' not loaded; ensure() not called first", none⟩
  | some entry => h.connect platformId entry

/-- `conn.exec`, where the command goes out whatever comes back. -/
def sendCommand (h : CliHost) (platformId command : JsString) :
    Cli (Except ConnectionError ExecResult) := do
  modify fun m => { m with sent := m.sent ++ [(platformId, command)] }
  pure (h.exec platformId command)

/-- A time-out counts as a result with exit code -1. -/
def timeoutResult (h : CliHost) (e : ConnectionError) : Option ExecResult :=
  if js "timed out" <:+: e.message then some ⟨[], [], .fin ⟨true, 1, 0, by decide⟩, h.wallMs⟩ else none

/-- What `runPlatformExec` reports from: the result or the time-out's, the error, the
time-out flag and the exit code. -/
structure ExecReport where
  result : Option ExecResult
  error : Option ConnectionError
  timedOut : Bool
  exit : ℕ

def ExecReport.of (h : CliHost) : Except ConnectionError ExecResult → ExecReport
  | .ok r => ⟨some r, none, false, if r.exitCode.strictEq (.ofNat 0) then exitOk else exitConnectFail⟩
  | .error e => ⟨timeoutResult h e, some e, (timeoutResult h e).isSome, exitConnectFail⟩

def ExecReport.json (h : CliHost) (report : ExecReport) (platformId command : JsString) : JsValue :=
  let failure : Fields :=
    if report.timedOut then [(js "error", .str (js "timeout"))]
    else match report.error with
      | none => []
      | some e => [(js "error", .obj [(js "name", .str e.name), (js "message", .str e.message),
          (js "code", e.code.elim .null .str)])]
  .obj ([(js "ok", .bool (report.exit = exitOk)), (js "platform_id", .str platformId),
    (js "command", .str command), (js "stdout", .str (report.result.elim [] ExecResult.stdout)),
    (js "stderr", .str (report.result.elim [] ExecResult.stderr)),
    (js "exit_code", .num (report.result.elim (.fin ⟨true, 1, 0, by decide⟩) ExecResult.exitCode)),
    (js "duration_ms", .num (report.result.elim h.wallMs ExecResult.durationMs))] ++ failure)

def printNonempty (print : JsString → Cli Unit) (s : JsString) : Cli Unit :=
  if s = [] then pure () else print s

def reportExec (h : CliHost) (platformId command : JsString) (json : Bool) (report : ExecReport) :
    Cli ℕ :=
  if json then do
    printOut (printJson (report.json h platformId command))
    pure report.exit
  else
    match report.result with
    | some r => do
      printNonempty printOut r.stdout
      printNonempty printErr r.stderr
      printOut (js "exit: " ++ r.exitCode.toText ++ js "  duration: " ++ r.durationMs.toText ++
        js "ms" ++ (if report.timedOut then js "  error: timeout" else []) ++ js "\n")
      pure report.exit
    | none => do
      printNonempty printErr (report.error.elim [] fun e =>
        printError (js "connection failed: " ++ e.name ++ js ": " ++ e.message))
      pure report.exit

/-- `commandTokens.join(' ')` -/
def joinTokens (tokens : List JsString) : JsString := [0x20].intercalate tokens

def runPlatformExec (h : CliHost) (platformId : JsString) (commandTokens : List JsString)
    (json : Bool) (loaded : Option JsValue) : Cli ℕ := do
  match ← getPlatform h platformId with
  | none => do
    printErr (printError (js "no platform '" ++ platformId ++ js "' in inventory"))
    pure exitUsage
  | some _ =>
    let command := joinTokens commandTokens
    if command = [] then do
      printErr (printError (js "platform exec requires a command (use `--` to separate)"))
      pure exitUsage
    else
      match getConnection h platformId loaded with
      | .error e => reportExec h platformId command json (.of h (.error e))
      | .ok () => do
        let outcome ← sendCommand h platformId command
        reportExec h platformId command json (.of h outcome)

/-! ### `inventory remove` -/

def removeRecord (h : CliHost) (platformId : JsString) (json certRevoked : Bool) : Cli ℕ := do
  removePlatform h platformId
  if json then
    printOut (printJson (.obj [(js "removed", .str platformId), (js "cert_revoked", .bool certRevoked)]))
  else printOut (js "Removed " ++ platformId ++ js "; cert " ++
    (if certRevoked then js "revoked" else js "not revoked (no cert was on file)") ++
    js ".\nNote: the CA pubkey on the platform is NOT removed; remove it manually if desired.\n")
  pure exitOk

/-- `runInventoryRemove` once it is confirmed. -/
def removeConfirmed (h : CliHost) (platformId : JsString) (json : Bool) : Cli ℕ := do
  let revoked ← tryCatch (do revokeKeys h.toCaHost platformId; pure (some true)) fun
    | .ca .noCert _ => pure (some false)
    | e => do
      if json then
        printOut (printJson (.obj [(js "ok", .bool false), (js "error", .str e.message),
          (js "code", .str (js "REVOKE_FAILED"))]))
      else printErr (printError (js "cert revocation failed: " ++ e.message))
      pure none
  match revoked with
  | none => pure exitUsage
  | some certRevoked => removeRecord h platformId json certRevoked

def runInventoryRemove (h : CliHost) (platformId : JsString) (json yes : Bool) : Cli ℕ := do
  match ← getPlatform h platformId with
  | none => do
    printErr (printError (js "no platform '" ++ platformId ++ js "' in inventory"))
    pure exitUsage
  | some _ =>
    if yes || json then removeConfirmed h platformId json
    else if !h.isTTY then do
      printErr (printError (js "inventory remove requires --yes in non-interactive mode"))
      pure exitUsage
    else
      match h.confirm with
      | .error e => throw (.node e)
      | .ok true => removeConfirmed h platformId json
      | .ok false => do
        printOut (js "Aborted; no changes made.\n")
        pure exitOk

/-! ### `runCli` -/

/-- The hook of the `platform` group loads the platform once the check is passed. -/
def ensureLoaded (h : CliHost) (proceed : Bool) (platformId : JsString) : Cli (Option JsValue) :=
  if proceed then getPlatform h platformId else pure none

/-- The hooks around a command and its action. Only the `inventory` group asks, before it
acts, whether the check was passed; the others are told so only after they have acted. -/
def runAction (h : CliHost) (command : AdminCommand) : Cli ℕ := do
  let proceed ← enforceAdminIfRequired h command.name
  match command with
  | .consentRevoke cidr json => do
    let lastExit ← runConsentRevoke h cidr json
    pure (if proceed then lastExit else exitUsage)
  | .caInit passphraseFile json => do
    let lastExit ← runCAInit h passphraseFile json
    pure (if proceed then lastExit else exitUsage)
  | .caRotate platformId json => do
    let lastExit ← runCARotate h platformId json
    pure (if proceed then lastExit else exitUsage)
  | .platformExec platformId commandTokens json => do
    let loaded ← ensureLoaded h proceed platformId
    let lastExit ← runPlatformExec h platformId commandTokens json loaded
    pure (if proceed then lastExit else exitUsage)
  | .inventoryRemove platformId json yes =>
    if proceed then runInventoryRemove h platformId json yes else pure exitUsage

/-- The exit code for an error with this code. -/
def exitOfCode : Option JsString → ℕ
  | none => exitInternal
  | some code =>
    if code = js "commander.helpDisplayed" ∨ code = js "commander.help" ∨ code = js "commander.version"
    then exitOk
    else if (js "commander.").isPrefixOf code then exitUsage
    else exitInternal

def runCli (h : CliHost) (argv : List JsString) (m : Machine) : ℕ × Machine :=
  match h.parse argv with
  | .error code => (exitOfCode (some code), m)
  | .ok command =>
    match (runAction h command).run m with
    | .ok exit m' => (exit, m')
    | .error e m' =>
      (exitOfCode e.code,
        { m' with stderr := m'.stderr ++ printError (js "unexpected internal error: " ++ e.message) ++
          (h.stack e).elim [] fun stack => stack ++ js "\n" })

end Homelab
