import Homelab.BackupGate
import Homelab.ManifestFile

/-! Where the command line looks for its state: the resolvers of the data directory, the
moment at which a command group asks for it, and the state that each command opens. -/
namespace Homelab
open Js Path

/-- What a process sees around it. -/
structure Surroundings where
  env : JsString → Option JsString
  homedir : JsString
  cwd : JsString
  cwd_absolute : isAbsolute cwd = true

/-- A variable that is set and not empty. -/
def given (value : Option JsString) : Option JsString := value.filter (· ≠ [])

def homeName : JsString := js ".autonomous-dev-homelab"

/-- The directory of `assembleRuntime`, and the default of the command line. -/
def homeDataDir (s : Surroundings) : JsString := join [s.homedir, homeName]

def dataDirEnv : JsString := js "AUTONOMOUS_DEV_HOMELAB_DATA_DIR"

def defaultResolveDataDir (override : Option JsString) (s : Surroundings) : JsString :=
  match override with
  | some dir => resolve s.cwd dir
  | none =>
    match given (s.env dataDirEnv) with
    | some dir => resolve s.cwd dir
    | none => homeDataDir s

/-- `process.env['HOMELAB_DATA_DIR'] ?? process.env['CLAUDE_PLUGIN_DATA']` -/
def safetyVariable (s : Surroundings) : Option JsString :=
  (s.env (js "HOMELAB_DATA_DIR")).or (s.env (js "CLAUDE_PLUGIN_DATA"))

def safetyName : JsString := js ".homelab-data"

/-- `dataDir()` of the safety modules, which the metrics spell out again. -/
def dataDir (s : Surroundings) : JsString :=
  match given (safetyVariable s) with
  | some dir => dir
  | none => resolve s.cwd safetyName

/-! ### Commands and their state -/

inductive Command
  | discover
  | platformInstallCa | platformConnectTest | platformExec | platformRotateKey
  | auditVerify | auditQuery
  | consentList | consentGrant | consentRevoke
  | caInit | caRotate | caList
  | observeScan | observeList | observePromote
  | safetyCheck | cancelAction | migrationsStatus | metricsShow | portal | logs
  | configValidate | vaultPing
  | autofixPropose | autofixDryRun | autofixApply | autofixAbortPending
  | connectTest
  | backupRun | backupList | backupVerify | backupRestore | backupDrivers
  | inventoryList | inventoryGet | inventoryRemove | inventoryEnumerate | inventoryRefresh
  | inventoryClassify | inventoryDatastores | inventoryTopology
  | grafanaDashboards | healthScore | rulesShow | rulesExport | observabilityOnboard
deriving DecidableEq

structure Argv where
  command : Command
  dataDir : Option JsString

/-- While the groups are wired, or in a handler or hook of the command that was parsed. -/
inductive Moment
  | wiring
  | action
deriving DecidableEq

/-- `program.opts().dataDir`; before parsing there are no options. -/
def optsDataDir (argv : Argv) : Moment → Option JsString
  | .wiring => none
  | .action => argv.dataDir

inductive Resolver
  | cli (moment : Moment)
  | safety
  | bootstrap
deriving DecidableEq

def Resolver.dir (argv : Argv) (s : Surroundings) : Resolver → JsString
  | .cli moment => defaultResolveDataDir (optsDataDir argv moment) s
  | .safety => dataDir s
  | .bootstrap => homeDataDir s

/-- The entries of a data directory. -/
inductive StateName
  | networkConsent | inventory | inventoryGraph | observations | adminActors | ca | keys
  | connectionKeys | auditLog | auditKey | proposals | backupManifest | pendingActions
  | migrations | metricsClocks | fpCounters
deriving DecidableEq

def StateName.text : StateName → JsString
  | .networkConsent => js "network_consent.yaml"
  | .inventory => js "inventory.yaml"
  | .inventoryGraph => js "inventory-graph.yaml"
  | .observations => js "observations"
  | .adminActors => js ".admin-actors"
  | .ca => js "ca"
  | .keys => js "keys"
  | .connectionKeys => js ".keys"
  | .auditLog => js "audit.log"
  | .auditKey => js ".audit-key"
  | .proposals => js ".autonomous-dev"
  | .backupManifest => js "backup-manifest.json"
  | .pendingActions => js "pending-actions"
  | .migrations => js "migrations"
  | .metricsClocks => js "metrics-clocks"
  | .fpCounters => js "metrics-fp-counters.json"

theorem StateName.plain (n : StateName) : Plain n.text := by
  cases n <;> decide

/-- State that a module opens in the directory it resolves. -/
structure DataFile where
  resolver : Resolver
  name : StateName
deriving DecidableEq

def DataFile.path (argv : Argv) (s : Surroundings) (f : DataFile) : JsString :=
  join [f.resolver.dir argv s, f.name.text]

/-- Where the file lies. -/
def DataFile.location (argv : Argv) (s : Surroundings) (f : DataFile) : List JsString :=
  locate s.cwd (f.path argv s)

def wired (names : List StateName) : List DataFile := names.map fun n => ⟨.cli .wiring, n⟩

def inAction (names : List StateName) : List DataFile := names.map fun n => ⟨.cli .action, n⟩

def ofSafety (names : List StateName) : List DataFile := names.map fun n => ⟨.safety, n⟩

/-- What `assembleRuntime` opens: the private keys that it materializes, and the log that
the redactor's events go to. -/
def bootstrapFiles : List DataFile :=
  [⟨.bootstrap, .connectionKeys⟩, ⟨.bootstrap, .auditLog⟩, ⟨.bootstrap, .auditKey⟩]

/-- All that the hooks and the handler of the command can open. -/
def Command.files : Command → List DataFile
  | .discover => inAction [.networkConsent, .inventory]
  | .platformInstallCa => wired [.inventory, .ca]
  | .platformConnectTest => wired [.inventory]
  | .platformExec => wired [.adminActors, .inventory]
  | .platformRotateKey => wired [.inventory, .ca, .keys]
  | .auditVerify => wired [.auditLog, .auditKey]
  | .auditQuery => wired [.auditLog]
  | .consentList => wired [.networkConsent]
  | .consentGrant => wired [.networkConsent]
  | .consentRevoke => wired [.adminActors, .networkConsent]
  | .caInit => wired [.adminActors, .ca]
  | .caRotate => wired [.adminActors, .inventory, .ca, .keys]
  | .caList => wired [.ca, .keys]
  | .observeScan => wired [.observations, .inventoryGraph]
  | .observeList => wired [.observations]
  | .observePromote => wired [.observations]
  | .safetyCheck => []
  | .cancelAction => ofSafety [.pendingActions]
  | .migrationsStatus => ofSafety [.migrations]
  | .metricsShow => ofSafety [.fpCounters, .metricsClocks]
  | .portal => []
  | .logs => wired [.inventoryGraph]
  | .configValidate => []
  | .vaultPing => []
  | .autofixPropose => wired [.observations, .proposals, .auditLog, .auditKey]
  | .autofixDryRun => wired [.proposals, .auditLog, .auditKey]
  | .autofixApply => wired [.proposals, .auditLog, .auditKey] ++ ofSafety [.backupManifest] ++
      bootstrapFiles
  | .autofixAbortPending => ofSafety [.pendingActions] ++ wired [.auditLog, .auditKey]
  | .connectTest => bootstrapFiles
  | .backupRun => bootstrapFiles ++ wired [.backupManifest]
  | .backupList => wired [.backupManifest]
  | .backupVerify => ofSafety [.backupManifest]
  | .backupRestore => wired [.backupManifest] ++ bootstrapFiles ++ ofSafety [.backupManifest]
  | .backupDrivers => []
  | .inventoryList => inAction [.inventory]
  | .inventoryGet => inAction [.inventory]
  | .inventoryRemove => inAction [.adminActors, .inventory, .ca, .keys]
  | .inventoryEnumerate => inAction [.inventory, .inventoryGraph, .connectionKeys]
  | .inventoryRefresh => inAction [.inventory, .inventoryGraph, .connectionKeys, .observations]
  | .inventoryClassify => inAction [.inventoryGraph]
  | .inventoryDatastores => inAction [.inventory, .inventoryGraph, .connectionKeys]
  | .inventoryTopology => inAction [.inventoryGraph]
  | .grafanaDashboards => wired [.inventoryGraph]
  | .healthScore => wired [.inventoryGraph, .observations]
  | .rulesShow => wired [.inventoryGraph]
  | .rulesExport => wired [.inventoryGraph]
  | .observabilityOnboard => wired [.inventoryGraph]

/-- One `runCli`. Wiring the `observe` group assembles a runtime whatever the command is, if
the operator's config loads and Vault answers; how far the handler gets depends on what it
reads and is answered. -/
structure Invocation where
  argv : Argv
  surroundings : Surroundings
  assembled : Bool
  reached : DataFile → Bool

def Invocation.touched (i : Invocation) : List DataFile :=
  (if i.assembled then bootstrapFiles else []) ++ i.argv.command.files.filter i.reached

/-- Everything that the invocation touches lies in this data directory. -/
def Invocation.LiesIn (i : Invocation) (dir : List JsString) : Prop :=
  ∀ f ∈ i.touched, f.location i.argv i.surroundings = dir ++ [f.name.text]

/-! ### The directory as the inputs determine it -/

def chosen (s : Surroundings) (value : Option JsString) (default : List JsString) :
    List JsString :=
  match given value with
  | some dir => locate s.cwd dir
  | none => default

def homeDirectory (s : Surroundings) : List JsString := locate s.cwd s.homedir ++ [homeName]

def cliDirectory (s : Surroundings) : List JsString :=
  chosen s (s.env dataDirEnv) (homeDirectory s)

def safetyDirectory (s : Surroundings) : List JsString :=
  chosen s (safetyVariable s) (locate s.cwd safetyName)

def Resolver.directory (flag : Option JsString) (s : Surroundings) : Resolver → List JsString
  | .cli .wiring => cliDirectory s
  | .cli .action =>
    match flag with
    | some dir => locate s.cwd dir
    | none => cliDirectory s
  | .safety => safetyDirectory s
  | .bootstrap => homeDirectory s

theorem locate_homeDataDir (s : Surroundings) : locate s.cwd (homeDataDir s) = homeDirectory s :=
  locate_join (by decide) s.cwd s.homedir

theorem locate_default (s : Surroundings) :
    locate s.cwd (defaultResolveDataDir none s) = cliDirectory s := by
  rw [defaultResolveDataDir, cliDirectory, chosen]
  cases given (s.env dataDirEnv) with
  | some dir => exact locate_resolve s.cwd dir
  | none => exact locate_homeDataDir s

theorem locate_dataDir (s : Surroundings) : locate s.cwd (dataDir s) = safetyDirectory s := by
  rw [dataDir, safetyDirectory, chosen]
  cases given (safetyVariable s) with
  | some dir => rfl
  | none => exact locate_resolve s.cwd safetyName

/-- The resolvers choose what the inputs determine. -/
theorem locate_dir (argv : Argv) (s : Surroundings) (r : Resolver) :
    locate s.cwd (r.dir argv s) = r.directory argv.dataDir s := by
  cases r with
  | safety => exact locate_dataDir s
  | bootstrap => exact locate_homeDataDir s
  | cli moment =>
    cases moment with
    | wiring => exact locate_default s
    | action =>
      obtain ⟨command, flag⟩ := argv
      cases flag with
      | some dir => exact locate_resolve s.cwd dir
      | none => exact locate_default s

theorem DataFile.location_eq (argv : Argv) (s : Surroundings) (f : DataFile) :
    f.location argv s = f.resolver.directory argv.dataDir s ++ [f.name.text] := by
  rw [DataFile.location, DataFile.path, locate_join f.name.plain, locate_dir]

theorem Invocation.liesIn_iff {i : Invocation} {dir : List JsString} : i.LiesIn dir ↔
    ∀ f ∈ i.touched, f.resolver.directory i.argv.dataDir i.surroundings = dir := by
  refine forall_congr' fun f => forall_congr' fun _ => ?_
  rw [DataFile.location_eq, List.append_left_inj]

end Homelab
