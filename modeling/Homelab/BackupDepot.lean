import Homelab.BackupRun
import Homelab.Interleaving

/-! The artifacts of backups that run side by side on one host: where each of them lies, which run has
written it last, and when it is the one that an entry names. -/
namespace Homelab
open Js Path Shell Dialogue

/-! ### Artifacts -/

/-- What a location names: a snapshot of a repository, or a file of the host. -/
inductive Spot
  | snapshot (url : JsString)
  | file (path : List JsString)
deriving DecidableEq

def spotOf (cwd location : JsString) : Spot :=
  if js "opensearch://" <+: location then .snapshot location else .file (locate cwd location)

/-- What has been written, the newest first, and by which run -/
abbrev Depot (Run : Type) := List (Spot × Option Run)

variable {Run : Type}

def Depot.owner (depot : Depot Run) (spot : Spot) : Option Run :=
  (depot.find? fun f => f.1 = spot).bind Prod.snd

/-- The name of a file of the directory that `*<suffix>` stands for -/
def globbed (cwd dir suffix : JsString) : Spot → Option JsString
  | .snapshot _ => none
  | .file path =>
    match path.getLast? with
    | none => none
    | some name =>
      if path.dropLast = locate cwd dir ∧ suffix <:+ name ∧ name.head? ≠ some 0x2E then some name else none

/-- What `ls -t <dir>/*<suffix> 2>/dev/null | head -1` prints -/
def Depot.listing (depot : Depot Run) (cwd dir suffix : JsString) : JsString :=
  match depot.findSome? fun f => globbed cwd dir suffix f.1 with
  | none => []
  | some name => dir ++ js "/" ++ name ++ js "\n"

/-! ### Commands -/

def AllWorked : Except JsString Reply → Prop
  | .error _ => False
  | .ok reply => ∀ p ∈ reply.ran, p.outcome.worked = true

/-- What a command of the role writes. One of which a program has failed may have written nothing; a
container that is given no absolute directory writes to a volume of that name. -/
def MayWrite (role : Role) (answer : Except JsString Reply) (written : Option JsString) : Prop :=
  match role with
  | .creates artifact => written = some artifact ∨ written = none ∧ ¬ AllWorked answer
  | .createsIn dir fileName =>
    if isAbsolute dir then written = some (join [dir, fileName]) ∨ written = none ∧ ¬ AllWorked answer
    else written = none
  | .dumps dir name =>
    (∃ n, (name = none ∨ name = some n) ∧ written = some (join [dir, n])) ∨ written = none ∧
      ¬ AllWorked answer
  | _ => written = none

/-- The host, on which any of the runs may ask the time or run a command -/
def backupHost (cwd : JsString) : Host Run (Depot Run) (Option JsString) HostAnswer where
  may depot _ q answer written :=
    match q, answer with
    | .now, _ => written = none
    | .command role script, answer => MayAnswer (.command role script) answer ∧ MayWrite role answer written ∧
      ∀ reply dir suffix, answer = .ok reply → role = .lists dir suffix → reply.outcome.status = 0 →
        reply.outcome.stdout = depot.listing cwd dir suffix
  act run written depot :=
    match written with
    | none => depot
    | some location => (spotOf cwd location, some run) :: depot

structure BackupCall where
  driver : Driver
  input : BackupDriverInput

abbrev Backups (Run : Type) := Side Run (Depot Run) HostAnswer JsString Artifact

/-- All calls are still to be made, on a host with some files. -/
def Backups.start (calls : Run → BackupCall) (files : List Spot) : Backups Run :=
  ⟨files.map fun spot => (spot, none), fun i => (calls i).driver.backup (calls i).input⟩

/-- The driver of the call has returned, and this is the entry that is recorded, at some moment. -/
def EntryOf (calls : Run → BackupCall) (s : Backups Run) (i : Run) (record : BackupRecord) : Prop :=
  ∃ rt artifact, s.tasks i = .done artifact ∧
    record = recordOf rt (calls i).driver.targetType (calls i).input artifact

/-- Each entry names the artifact that its own call has written, and no two entries name the same. -/
structure OwnsArtifacts (cwd : JsString) (calls : Run → BackupCall) (s : Backups Run) : Prop where
  own : ∀ i record, EntryOf calls s i record → s.shared.owner (spotOf cwd record.location) = some i
  distinct : ∀ i j record record', i ≠ j → EntryOf calls s i record → EntryOf calls s j record' →
    record.location ≠ record'.location

/-- The command does not write what another call has written, unless that has failed; if it is to create an
artifact and exits with zero, it has; and the newest file that it lists is one of the call itself. -/
def Apart (cwd : JsString) (s : Backups Run) (i : Run) (q : Ask) (answer : HostAnswer q)
    (written : Option JsString) : Prop :=
  (∀ location j, written = some location → s.shared.owner (spotOf cwd location) = some j → j ≠ i →
    ∃ message, s.tasks j = .fail message) ∧
  match q, answer with
  | .now, _ => True
  | .command _ _, .error _ => True
  | .command role _, .ok reply => reply.outcome.status = 0 →
    match role with
    | .creates _ => written ≠ none
    | .createsIn _ _ => written ≠ none
    | .lists dir suffix => trim (s.shared.listing cwd dir suffix) ≠ [] ∧
      s.shared.owner (spotOf cwd (trim (s.shared.listing cwd dir suffix))) = some i
    | _ => True

end Homelab
