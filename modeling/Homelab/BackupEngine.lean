import Homelab.Dialogue
import Homelab.JsCoerce
import Homelab.NodePath
import Homelab.Shell

/-! The backup drivers: what each of them asks the host of its target to run, and what it
takes from the answers. -/
namespace Homelab
open Js Path Shell

/-! ### Inputs -/

/-- A unit that means nothing to the shell. -/
def isSafeUnit (c : CodeUnit) : Bool :=
  (0x30 ≤ c.toNat && c.toNat ≤ 0x39) || (0x41 ≤ c.toNat && c.toNat ≤ 0x5A) ||
    (0x61 ≤ c.toNat && c.toNat ≤ 0x7A) || c ∈ js "_@%+=:,./-"

/-- A text that is safe to pass on a shell command line, as one word. -/
structure ShellWord where
  text : JsString
  nonempty : text ≠ []
  safe : text.all isSafeUnit = true

structure BackupDriverInput where
  targetId : ShellWord
  platform : JsString
  params : JsString → Option ShellWord
  destDir : ShellWord
  dataDir : JsString

namespace BackupDriverInput

variable (input : BackupDriverInput)

/-- `input.params[key] ?? fallback` -/
def param (key fallback : JsString) : JsString :=
  match input.params key with
  | some word => word.text
  | none => fallback

def target : JsString := input.targetId.text

def dest : JsString := input.destDir.text

/-- `path.posix.join(input.destDir, fileName)` -/
def destPath (fileName : JsString) : JsString := join [input.dest, fileName]

end BackupDriverInput

/-! ### Asking the host -/

/-- What a command is run for: to create an artifact at a path, or in a directory that a
container has mounted; to dump under a name that the program chooses; to prepare or to wait;
to look for the newest dump; or to inspect an artifact. -/
inductive Role
  | creates (artifact : JsString)
  | createsIn (dir fileName : JsString)
  | dumps (dir : JsString) (name : Option JsString)
  | prepares
  | waits
  | lists (dir suffix : JsString)
  | inspects

/-- The programs of the command are part of producing the artifact. -/
def Role.produces : Role → Bool
  | .creates _ => true
  | .createsIn _ _ => true
  | .dumps _ _ => true
  | .prepares => true
  | .waits => false
  | .lists _ _ => false
  | .inspects => false

inductive Ask
  | now
  | command (role : Role) (script : Script JsString)

/-- What `connection.exec` resolves to, and the programs that were run for it. -/
structure Reply where
  ran : List (Ran JsString)
  outcome : Outcome JsString

/-- `Date.now()`, or what `connection.exec` rejects with or resolves to. -/
def HostAnswer : Ask → Type
  | .now => ℕ
  | .command _ _ => Except JsString Reply

abbrev Remote := Dialogue HostAnswer JsString

def dateNow : Remote ℕ := Dialogue.put Ask.now

def countText (n : ℕ) : JsString := (JsNumber.ofNat n).toText

def execOrThrow (role : Role) (script : Script JsString) : Remote JsString :=
  .ask (.command role script) fun answer =>
    match answer with
    | .error message => .fail message
    | .ok reply =>
      if reply.outcome.status ≠ 0 then
        .fail (js "Command failed (exit " ++ countText reply.outcome.status ++ js "): " ++
          reply.outcome.stderr.take 500)
      else .done reply.outcome.stdout

def parseSizeOutput (raw : JsString) : ℕ := ofDigitList (spanDigits (trim raw)).1

/-- What a driver returns. -/
structure Artifact where
  artifactPath : JsString
  sizeBytes : ℕ
  checksum : JsString

/-- The size and the checksum that all drivers but one ask for. -/
def measured (path : JsString) : Remote Artifact := do
  let sizeRaw ← execOrThrow .inspects (.run [js "stat", js "-c", js "%s", path])
  let checksumRaw ← execOrThrow .inspects
    (.pipe (.run [js "sha256sum", path]) (.run [js "awk", js "'\x7bprint $1\x7d'"]))
  return ⟨path, parseSizeOutput sizeRaw, trim checksumRaw⟩

/-- `ls -t <dir>/*<suffix> 2>/dev/null | head -1` -/
def newestIn (dir suffix : JsString) : Script JsString :=
  .pipe (.stderr (.run [js "ls", js "-t", dir ++ js "/*" ++ suffix]) (js "/dev/null"))
    (.run [js "head", js "-1"])

/-! ### Drivers -/

def postgresDriver (input : BackupDriverInput) : Remote Artifact := do
  let dbName := input.param (js "db") input.target
  let t ← dateNow
  let destPath := input.destPath (js "pg-" ++ dbName ++ js "-" ++ countText t ++ js ".sql.gz")
  let _ ← execOrThrow (.creates destPath)
    (.pipe (.run [js "pg_dump", dbName]) (.into (.run [js "gzip"]) destPath))
  measured destPath

/-- `while [ "$(redis-cli LASTSAVE)" = "$(redis-cli LASTSAVE)" ] && redis-cli BGSAVE 2>&1 |
grep -q 'Background saving'; do sleep 1; done` -/
def awaitSave : Script JsString :=
  let lastSave := .run [js "redis-cli", js "LASTSAVE"]
  let shown := js "\"$(redis-cli LASTSAVE)\""
  let unchanged := .subst lastSave (.subst lastSave (.run [js "[", shown, js "=", shown, js "]"]))
  let started := .pipe (.stderr (.run [js "redis-cli", js "BGSAVE"]) (js "&1"))
    (.run [js "grep", js "-q", js "'Background saving'"])
  .loop (.both unchanged started) (.run [js "sleep", js "1"])

def redisDriver (input : BackupDriverInput) : Remote Artifact := do
  let rdbPath := input.param (js "rdb_path") (js "/var/lib/redis/dump.rdb")
  let t ← dateNow
  let destPath := input.destPath (js "redis-" ++ input.target ++ js "-" ++ countText t ++ js ".rdb")
  let _ ← execOrThrow .prepares (.run [js "redis-cli", js "BGSAVE"])
  let _ ← execOrThrow .waits awaitSave
  let _ ← execOrThrow (.creates destPath) (.run [js "cp", rdbPath, destPath])
  measured destPath

def dockerVolumeDriver (input : BackupDriverInput) : Remote Artifact := do
  let volumeName := input.param (js "volume") input.target
  let t ← dateNow
  let fileName := js "docker-vol-" ++ volumeName ++ js "-" ++ countText t ++ js ".tar.gz"
  let _ ← execOrThrow (.createsIn input.dest fileName)
    (.run [js "docker", js "run", js "--rm", js "-v", volumeName ++ js ":/data", js "-v",
      input.dest ++ js ":/backup", js "busybox", js "tar", js "czf", js "/backup/" ++ fileName,
      js "-C", js "/data", js "."])
  measured (input.destPath fileName)

def unraidShareDriver (input : BackupDriverInput) : Remote Artifact := do
  let sharePath := input.param (js "path") (js "/mnt/user/" ++ input.target)
  let t ← dateNow
  let destPath := input.destPath
    (js "unraid-share-" ++ input.target ++ js "-" ++ countText t ++ js ".tar.gz")
  let _ ← execOrThrow (.creates destPath)
    (.run [js "tar", js "czf", destPath, js "-C", sharePath, js "."])
  measured destPath

def filesystemDriver (input : BackupDriverInput) : Remote Artifact := do
  let srcPath := input.param (js "path") (js "/" ++ input.target)
  let t ← dateNow
  let destPath := input.destPath (js "fs-" ++ input.target ++ js "-" ++ countText t ++ js ".tar.gz")
  let _ ← execOrThrow (.creates destPath)
    (.run [js "tar", js "czf", destPath, js "-C", srcPath, js "."])
  measured destPath

/-- `dataset.replace(/\//g, '-')` -/
def dashed (dataset : JsString) : JsString := dataset.map fun c => if c = slash then 0x2D else c

def zfsDatasetDriver (input : BackupDriverInput) : Remote Artifact := do
  let dataset := input.param (js "dataset") input.target
  let t ← dateNow
  let snapName := dataset ++ js "@backup-" ++ countText t
  let u ← dateNow
  let destPath := input.destPath (js "zfs-" ++ dashed dataset ++ js "-" ++ countText u ++ js ".zfs.gz")
  let _ ← execOrThrow .prepares (.run [js "zfs", js "snapshot", snapName])
  let _ ← execOrThrow (.creates destPath)
    (.pipe (.run [js "zfs", js "send", snapName]) (.into (.run [js "gzip"]) destPath))
  measured destPath

/-- `listOut.trim() || destPath` -/
def listedOr (listOut destPath : JsString) : JsString :=
  if trim listOut = [] then destPath else trim listOut

def proxmoxVmDriver (input : BackupDriverInput) : Remote Artifact := do
  let vmid := input.param (js "vmid") input.target
  let t ← dateNow
  let destPath := input.destPath (js "proxmox-vm-" ++ vmid ++ js "-" ++ countText t ++ js ".vma.gz")
  let _ ← execOrThrow (.dumps input.dest none)
    (.run [js "vzdump", vmid, js "--compress", js "gzip", js "--dumpdir", input.dest, js "--mode",
      js "stop"])
  let listOut ← execOrThrow (.lists input.dest (js ".vma.gz")) (newestIn input.dest (js ".vma.gz"))
  measured (listedOr listOut destPath)

def opensearchDriver (input : BackupDriverInput) : Remote Artifact := do
  let host := input.param (js "host") (js "localhost:9200")
  let repo := input.param (js "repo") (js "fs_backup")
  let t ← dateNow
  let snapshot := host ++ js "/_snapshot/" ++ repo ++ js "/snap-" ++ countText t
  let _ ← execOrThrow (.creates (js "opensearch://" ++ snapshot))
    (.run [js "curl", js "-s", js "-X", js "PUT",
      js "\"http://" ++ snapshot ++ js "?wait_for_completion=true\""])
  return ⟨js "opensearch://" ++ snapshot, 0, []⟩

def neo4jDriver (input : BackupDriverInput) : Remote Artifact := do
  let dbName := input.param (js "db") (js "neo4j")
  let t ← dateNow
  let destPath := input.destPath (js "neo4j-" ++ dbName ++ js "-" ++ countText t ++ js ".dump")
  let _ ← execOrThrow (.dumps input.dest (some (dbName ++ js ".dump")))
    (.run [js "neo4j-admin", js "database", js "dump", dbName, js "--to-path=" ++ input.dest,
      js "--overwrite-destination"])
  let listOut ← execOrThrow (.lists input.dest (js ".dump")) (newestIn input.dest (js ".dump"))
  measured (listedOr listOut destPath)

def vaultRaftDriver (input : BackupDriverInput) : Remote Artifact := do
  let t ← dateNow
  let destPath := input.destPath (js "vault-raft-" ++ countText t ++ js ".snap")
  let _ ← execOrThrow (.creates destPath)
    (.run [js "vault", js "operator", js "raft", js "snapshot", js "save", destPath])
  measured destPath

/-- The built-in drivers. -/
inductive Driver
  | postgres | redis | dockerVolume | unraidShare | filesystem | zfsDataset | proxmoxVm
  | opensearch | neo4j | vaultRaft
deriving DecidableEq

namespace Driver

def targetType : Driver → JsString
  | postgres => js "postgres"
  | redis => js "redis"
  | dockerVolume => js "docker-volume"
  | unraidShare => js "unraid-share"
  | filesystem => js "filesystem"
  | zfsDataset => js "zfs-dataset"
  | proxmoxVm => js "proxmox-vm"
  | opensearch => js "opensearch"
  | neo4j => js "neo4j"
  | vaultRaft => js "vault-raft"

def backup : Driver → BackupDriverInput → Remote Artifact
  | postgres => postgresDriver
  | redis => redisDriver
  | dockerVolume => dockerVolumeDriver
  | unraidShare => unraidShareDriver
  | filesystem => filesystemDriver
  | zfsDataset => zfsDatasetDriver
  | proxmoxVm => proxmoxVmDriver
  | opensearch => opensearchDriver
  | neo4j => neo4jDriver
  | vaultRaft => vaultRaftDriver

/-- The registry, in the order of registration. -/
def all : List Driver :=
  [postgres, redis, dockerVolume, unraidShare, filesystem, zfsDataset, proxmoxVm, opensearch,
    neo4j, vaultRaft]

end Driver

end Homelab
