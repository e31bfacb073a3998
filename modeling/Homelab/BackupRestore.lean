import Homelab.BackupVerify
import Homelab.Dialogue
import Homelab.Gate
import Homelab.NodePath
import Homelab.Shell

/-! The restore engine: what it asks the host of an entry to run, and in which order it
verifies the entry, asks for approval and restores. An entry is any JSON value. -/
namespace Homelab
open Js Path Shell

/-! ### What is asked -/

/-- What a command is run for. All of them are built from the entry but the check of the
connection and the two that stop and start a service. -/
inductive RestoreStep
  | readArtifact
  | reachTarget
  | checksum
  | restore (fromEntry : Bool)
deriving DecidableEq

/-- The action that `runRestore` has approved; the gate prints its values as texts. -/
structure RestoreAction where
  id : JsString
  platform : JsValue
  resource : JsValue
  description : JsString
  requestedBy : JsString
  dryRunReport : JsString

inductive RestoreAsk
  | exec (step : RestoreStep) (script : Script JsString)
  | verifyHmac
  | gate (action : RestoreAction)

/-- What `connection.exec` rejects with or resolves to, what `verifyEntryHmac` returns, and
what `gateApproval` throws if it throws. -/
def RestoreAnswer : RestoreAsk → Type
  | .exec _ _ => Except JsString CommandResult
  | .verifyHmac => Bool
  | .gate _ => Except GateError Unit

/-- What the engine throws: an `Error`, or what came from the gate. -/
inductive RestoreError
  | error (message : JsString)
  | gate (e : GateError)

def RestoreError.message : RestoreError → JsString
  | .error message => message
  | .gate (.denied _ reason) => reason
  | .gate (.error message) => message
  | .gate (.thrown value) => (property (js "message") value).coerce

abbrev Restore := Dialogue RestoreAnswer RestoreError

namespace Restore

/-- `connection.exec` -/
def exec (step : RestoreStep) (script : Script JsString) : Restore CommandResult :=
  .ask (.exec step script) fun answer =>
    match answer with
    | .error message => .fail (.error message)
    | .ok result => .done result

def verifyHmac : Restore Bool := Dialogue.put RestoreAsk.verifyHmac

/-- `gateApproval` -/
def approve (action : RestoreAction) : Restore Unit :=
  .ask (.gate action) fun answer =>
    match answer with
    | .error e => .fail (.gate e)
    | .ok _ => .done ()

end Restore

def throwMessage {α : Type} (message : JsString) : Restore α := .fail (.error message)

/-! ### Texts of an entry -/

/-- A value in a template literal. -/
def templateText (v : JsValue) : Except JsString JsString :=
  if v.throwsOnCoerce then .error coercionMessage else .ok v.coerce

/-- `path.basename(v)` -/
def basenameOf : JsValue → Except JsString JsString
  | .str s => .ok (basename s)
  | v => .error (js "The \"path\" argument must be of type string. Received " ++ v.typeof)

/-- `path.posix.dirname(v)` -/
def dirnameOf : JsValue → Except JsString JsString
  | .str s => .ok (dirname s)
  | v => .error (js "The \"path\" argument must be of type string. Received " ++ v.typeof)

def openSearchScheme : JsString := js "opensearch://"

/-- `v.startsWith('opensearch://')` -/
def isOpenSearch : JsValue → Except JsString Bool
  | .str s => .ok (openSearchScheme.isPrefixOf s)
  | .undefined => .error (js "Cannot read properties of undefined (reading 'startsWith')")
  | .null => .error (js "Cannot read properties of null (reading 'startsWith')")
  | _ => .error (js "entry.location.startsWith is not a function")

/-! ### The restore plan -/

/-- A runbook: its title with the target, where the artifact is and when it was taken, and
the steps under a heading. -/
def runbook (title target artifact takenAt heading : JsString) (steps : List JsString) : JsString :=
  List.intercalate [0x0A] ([js "# DR Runbook — " ++ title ++ js "/" ++ target,
    js "Backup artifact : " ++ artifact, js "Taken at        : " ++ takenAt, [], heading] ++ steps)

def restoreSteps : JsString := js "## Restore steps"

/-- `buildDrRunbook` -/
def buildDrRunbook (entry : JsValue) : Except JsString JsString := do
  let location := property (js "location") entry
  let platformText ← templateText (property (js "platform") entry)
  let target ← templateText (property (js "target_id") entry)
  let artifact ← templateText location
  let ts ← templateText (property (js "taken_at") entry)
  let generic := runbook platformText target artifact ts (js "## Verification steps")
    [js "1. Confirm the service is stopped before restore.",
      js "2. Restore the artifact to the target location.",
      js "3. Start the service and validate health.",
      js "4. Update monitoring to suppress alerts during validation window (15 min).",
      js "5. Document the incident and time-to-restore in the runbook log."]
  match property (js "platform") entry with
  | .str platform =>
    if platform = js "postgres" then
      return runbook (js "PostgreSQL") target artifact ts restoreSteps
        [js "1. Stop the application tier.",
          js "2. Drop and recreate the target database (or use pg_restore --clean).",
          js "3. pg_restore -d <dbname> " ++ artifact ++ js "  (or gunzip | psql)",
          js "4. Run ANALYZE on restored tables.", js "5. Restart the application tier.",
          js "6. Validate row counts and recent write timestamps."]
    else if platform = js "redis" then
      return runbook (js "Redis") target artifact ts restoreSteps
        [js "1. Stop the Redis service (systemctl stop redis).",
          js "2. Replace the RDB file: cp " ++ artifact ++
            js " $(redis-cli CONFIG GET dir | tail -1)/dump.rdb",
          js "3. Start Redis (systemctl start redis).",
          js "4. Verify key count: redis-cli DBSIZE."]
    else if platform = js "proxmox" ∨ platform = js "proxmox-vm" then
      return runbook (js "Proxmox VM") target artifact ts restoreSteps
        [js "1. In the Proxmox UI, go to the backup store and select the artifact.",
          js "2. Click \"Restore\" — choose the target storage and VMID.",
          js "3. Or via CLI: qmrestore " ++ artifact ++ js " <new-vmid> --storage <storage>",
          js "4. Start the VM and verify boot + services."]
    else if platform = js "docker-volume" then do
      let fileName ← basenameOf location
      return runbook (js "Docker volume") target artifact ts restoreSteps
        [js "1. Stop containers using the volume.",
          js "2. docker run --rm -v <volume>:/data -v <destDir>:/backup busybox \\",
          js "     tar xzf /backup/" ++ fileName ++ js " -C /data",
          js "3. Restart the containers.", js "4. Verify data integrity."]
    else if platform = js "zfs-dataset" then
      return runbook (js "ZFS dataset") target artifact ts restoreSteps
        [js "1. Confirm no active I/O to the dataset.",
          js "2. zfs receive <target_dataset> < <(gunzip -c " ++ artifact ++ js ")",
          js "3. Or roll back to snapshot: zfs rollback <dataset>@<snapshot>",
          js "4. Remount and verify data."]
    else if platform = js "vault-raft" then
      return runbook (js "Vault Raft") target artifact ts restoreSteps
        [js "1. Seal all Vault nodes.", js "2. vault operator raft snapshot restore " ++ artifact,
          js "3. Unseal and verify cluster status: vault status",
          js "4. Rotate root token after recovery."]
    else if platform = js "neo4j" then
      return runbook (js "Neo4j") target artifact ts restoreSteps
        [js "1. Stop Neo4j service.",
          js "2. neo4j-admin database restore --from-path=" ++ artifact ++ js " --database=" ++
            target ++ js " --overwrite-destination",
          js "3. Start Neo4j and validate node counts."]
    else return generic
  | _ => return generic

structure RestorePlan where
  artifactPath : JsValue
  platform : JsValue
  targetId : JsValue
  backupType : JsValue
  takenAt : JsValue
  sizeBytes : JsValue
  overwriteDescription : JsString
  expectedDowntime : JsValue
  drRunbook : JsString

def downtimeMap : Fields :=
  [(js "postgres", .str (js "1–10 minutes (database restore + ANALYZE)")),
    (js "redis", .str (js "< 1 minute (RDB restore)")),
    (js "proxmox-vm", .str (js "5–30 minutes (VM restore from vzdump)")),
    (js "docker-volume", .str (js "2–5 minutes (volume restore)")),
    (js "zfs-dataset", .str (js "2–15 minutes (zfs receive)")),
    (js "vault-raft", .str (js "5–15 minutes (raft snapshot restore + unseal)")),
    (js "neo4j", .str (js "5–20 minutes (neo4j-admin restore)")),
    (js "opensearch", .str (js "5–30 minutes (snapshot restore)"))]

/-- `Math.round(v / 1024)` -/
def kibibytes (v : JsValue) : Except JsString JsString :=
  if v.throwsOnCoerce then .error coercionMessage
  else .ok ((v.toNumber.add (.ofNat 512)).floorDiv 1024).toText

/-- `buildRestorePlan` -/
def buildRestorePlan (entry : JsValue) : Except JsString RestorePlan := do
  let platform ← readProperty entry (js "platform")
  let field k := property (js k) entry
  let platformText ← templateText platform
  let target ← templateText (field "target_id")
  let ts ← templateText (field "taken_at")
  let size ← kibibytes (field "size_bytes")
  let runbookText ← buildDrRunbook entry
  return {
    artifactPath := field "location"
    platform := platform
    targetId := field "target_id"
    backupType := field "backup_type"
    takenAt := field "taken_at"
    sizeBytes := field "size_bytes"
    overwriteDescription := platformText ++ js " target \"" ++ target ++
      js "\" will be overwritten with backup taken at " ++ ts ++ js " (" ++ size ++ js " KiB)."
    expectedDowntime := (lookupPlain downtimeMap platformText).orElse
      (.str (js "5–30 minutes (unknown platform)"))
    drRunbook := runbookText }

/-! ### The dry run -/

variable (entry : JsValue)

/-- The text of a field; its plan has been built, so that coercing it does not throw. -/
def fieldText (k : JsString) : JsString := (property k entry).coerce

def nameOf : JsString := fieldText entry (js "platform") ++ js "/" ++ fieldText entry (js "target_id")

/-- `v === s` -/
def isTextOf (s : JsString) : JsValue → Bool
  | .str t => t == s
  | _ => false

/-- The first check of `reVerifyEntry`. -/
def checkHmac : Restore Unit :=
  if isEmptyText (property (js "hmac") entry) then pure ()
  else do
    let verified ← Restore.verifyHmac
    if verified then pure ()
    else throwMessage (js "Backup manifest HMAC verification failed for " ++ nameOf entry ++
      js ". The entry may have been tampered with. Refusing restore.")

def checksumScript (location : JsString) : Script JsString :=
  .pipe (.run [js "sha256sum", location]) (.run [js "awk", js "'\x7bprint $1\x7d'"])

def compareChecksum (location : JsString) (result : CommandResult) : Restore Unit :=
  if result.exitCode ≠ 0 then
    throwMessage (js "Cannot read artifact for checksum verification: " ++ location ++
      js ". stderr: " ++ result.stderr.take 200)
  else if isTextOf (trim result.stdout) (property (js "checksum") entry) then pure ()
  else throwMessage (js "Artifact checksum mismatch for " ++ location ++ js ". Expected " ++
    fieldText entry (js "checksum") ++ js ", got " ++ trim result.stdout ++ js ". Refusing restore.")

/-- The second check of `reVerifyEntry`. -/
def checkChecksum : Restore Unit :=
  if isEmptyText (property (js "checksum") entry) then pure ()
  else
    match isOpenSearch (property (js "location") entry) with
    | .error message => throwMessage message
    | .ok true => pure ()
    | .ok false => do
      let location := fieldText entry (js "location")
      let result ← Restore.exec .checksum (checksumScript location)
      compareChecksum entry location result

/-- `reVerifyEntry` -/
def reVerifyEntry : Restore Unit := do
  checkHmac entry
  checkChecksum entry

/-- A check of the dry run: whether it passed, and the error that it noted if not. -/
structure DryRunCheck where
  passed : Bool
  errors : List JsString

/-- A check whose own errors are caught and noted. -/
def caughtCheck (label : JsString) (check : Restore DryRunCheck) : Restore DryRunCheck :=
  check.attempt.bind fun result =>
    match result with
    | .ok c => .done c
    | .error e => .done ⟨false, [label ++ e.message]⟩

def probeSnapshot (location : JsString) : Restore DryRunCheck := do
  -- `replace` changes the scheme, which is the first occurrence
  let url := js "http://" ++ location.drop openSearchScheme.length
  let result ← Restore.exec .readArtifact (.run [js "curl", js "-s", js "-o", js "/dev/null", js "-w",
    js "\"%\x7bhttp_code\x7d\"", url])
  let readable := result.exitCode == 0 && trim result.stdout == js "200"
  pure ⟨readable, if readable then []
    else [js "OpenSearch snapshot not reachable: HTTP " ++ trim result.stdout]⟩

def probeFile (location : JsString) : Restore DryRunCheck := do
  let result ← Restore.exec .readArtifact (.run [js "stat", location])
  let readable := result.exitCode == 0
  pure ⟨readable, if readable then []
    else [js "Artifact not readable: " ++ location ++ js " — " ++ result.stderr.take 200]⟩

def probeArtifact : Restore DryRunCheck :=
  match isOpenSearch (property (js "location") entry) with
  | .error message => throwMessage message
  | .ok true => probeSnapshot (fieldText entry (js "location"))
  | .ok false => probeFile (fieldText entry (js "location"))

def probeTarget : Restore DryRunCheck := do
  let result ← Restore.exec .reachTarget (.run [js "echo", js "ok"])
  let reachable := result.exitCode == 0 && trim result.stdout == js "ok"
  pure ⟨reachable, if reachable then []
    else [js "Target host not reachable: connection.exec returned exit " ++
      (JsNumber.ofNat result.exitCode).toText]⟩

structure DryRunResult where
  ok : Bool
  artifactReadable : Bool
  targetReachable : Bool
  plan : RestorePlan
  errors : List JsString

/-- What the dry run concludes; an entry that does not verify counts as unreadable. -/
def concludeDryRun (plan : RestorePlan) (artifact target : DryRunCheck)
    (verification : Except RestoreError Unit) : DryRunResult :=
  match verification with
  | .ok _ =>
    let errors := artifact.errors ++ target.errors
    ⟨artifact.passed && target.passed && errors.isEmpty, artifact.passed, target.passed, plan, errors⟩
  | .error e =>
    ⟨false, false, target.passed, plan,
      artifact.errors ++ target.errors ++ [js "Verification failed: " ++ e.message]⟩

/-- `dryRunRestore` -/
def dryRunRestore : Restore DryRunResult :=
  match buildRestorePlan entry with
  | .error message => throwMessage message
  | .ok plan => do
    let artifact ← caughtCheck (js "Artifact readability check failed: ") (probeArtifact entry)
    let target ← caughtCheck (js "Target reachability check failed: ") probeTarget
    let verification ← (reVerifyEntry entry).attempt
    pure (concludeDryRun plan artifact target verification)

/-! ### Restoring -/

/-- `run` of `execRestore` -/
def restoreCommand (fromEntry : Bool) (script : Script JsString) : Restore Unit := do
  let result ← Restore.exec (.restore fromEntry) script
  if result.exitCode ≠ 0 then
    throwMessage (js "Restore command failed (exit " ++ (JsNumber.ofNat result.exitCode).toText ++
      js "): " ++ result.stderr.take 500)
  else pure ()

/-- `mkdir -p <dir> && tar xzf <archive> -C <dir>` -/
def extractInto (archive dir : JsString) : Script JsString :=
  .both (.run [js "mkdir", js "-p", dir]) (.run [js "tar", js "xzf", archive, js "-C", dir])

/-- `gunzip -c <archive> | <command>` -/
def unzipInto (archive : JsString) (command : List JsString) : Script JsString :=
  .pipe (.run [js "gunzip", js "-c", archive]) (.run command)

/-- The platforms that `execRestore` has a branch for. -/
inductive RestoreBranch
  | postgres | redis | proxmox | dockerVolume | zfsDataset | vaultRaft | neo4j | opensearch
  | directory | other
deriving DecidableEq

def restoreBranches : List (JsString × RestoreBranch) :=
  [(js "postgres", .postgres), (js "redis", .redis), (js "proxmox", .proxmox),
    (js "proxmox-vm", .proxmox), (js "docker-volume", .dockerVolume),
    (js "zfs-dataset", .zfsDataset), (js "vault-raft", .vaultRaft), (js "neo4j", .neo4j),
    (js "opensearch", .opensearch), (js "unraid-share", .directory), (js "filesystem", .directory)]

/-- `switch (entry.platform)` -/
def restoreBranch : JsValue → RestoreBranch
  | .str platform => (restoreBranches.lookup platform).getD .other
  | _ => .other

def dockerExtract (volume : JsString) (location : JsValue) : Restore Unit :=
  match dirnameOf location, basenameOf location with
  | .error message, _ => throwMessage message
  | _, .error message => throwMessage message
  | .ok destDir, .ok fileName =>
    restoreCommand true (.run [js "docker", js "run", js "--rm", js "-v", volume ++ js ":/data",
      js "-v", destDir ++ js ":/backup", js "busybox", js "tar", js "xzf", js "/backup/" ++ fileName,
      js "-C", js "/data"])

/-- `execRestore` -/
def execRestore : Restore Unit :=
  let location := fieldText entry (js "location")
  let target := fieldText entry (js "target_id")
  match restoreBranch (property (js "platform") entry) with
  | .postgres =>
    let backupType := property (js "backup_type") entry
    if isTextOf (js "pg_dump") backupType || isTextOf (js "postgres") backupType then
      restoreCommand true (unzipInto location [js "psql", target])
    else restoreCommand true (.run [js "pg_restore", js "--clean", js "-d", target, location])
  | .redis => do
    restoreCommand false (.run [js "systemctl", js "stop", js "redis"])
    restoreCommand true (.run [js "cp", location, js "/var/lib/redis/dump.rdb"])
    restoreCommand false (.run [js "systemctl", js "start", js "redis"])
  | .proxmox => restoreCommand true (.run [js "qmrestore", location, target, js "--force"])
  | .dockerVolume => dockerExtract target (property (js "location") entry)
  | .zfsDataset =>
    restoreCommand true (unzipInto location [js "zfs", js "receive", js "-F", target])
  | .vaultRaft =>
    restoreCommand true (.run [js "vault", js "operator", js "raft", js "snapshot", js "restore", location])
  | .neo4j =>
    restoreCommand true (.run [js "neo4j-admin", js "database", js "restore",
      js "--from-path=" ++ location, js "--database=" ++ target, js "--overwrite-destination"])
  | .opensearch =>
    match buildDrRunbook entry with
    | .error message => throwMessage message
    | .ok text => throwMessage (js "OpenSearch restore requires manual steps. See DR runbook:\n" ++ text)
  | .directory => restoreCommand true (extractInto location (js "/" ++ target))
  | .other => restoreCommand true (extractInto location
      (js "/restore/" ++ fieldText entry (js "platform") ++ js "/" ++ target))

structure RestoreResult where
  plan : RestorePlan
  dryRunResult : DryRunResult
  restored : Bool

/-- What `runRestore` is called with besides the entry. -/
structure RestoreInput where
  actionId : JsString
  dryRun : Bool
  requestedBy : JsString

def restoreAction (input : RestoreInput) (plan : RestorePlan) : RestoreAction where
  id := input.actionId
  platform := property (js "platform") entry
  resource := property (js "target_id") entry
  description := js "Restore " ++ nameOf entry ++ js " from backup taken " ++
    fieldText entry (js "taken_at") ++ js " (artifact: " ++ fieldText entry (js "location") ++ js ")"
  requestedBy := input.requestedBy
  dryRunReport := plan.drRunbook

/-- `runRestore` -/
def runRestore (input : RestoreInput) : Restore RestoreResult := do
  let dryRunResult ← dryRunRestore entry
  let plan := dryRunResult.plan
  if dryRunResult.ok = false then
    throwMessage (js "Restore dry-run failed for " ++ nameOf entry ++ js ":\n" ++
      List.intercalate [0x0A] dryRunResult.errors)
  else if input.dryRun then pure ⟨plan, dryRunResult, false⟩
  else do
    Restore.approve (restoreAction entry input plan)
    execRestore entry
    pure ⟨plan, dryRunResult, true⟩

end Homelab
