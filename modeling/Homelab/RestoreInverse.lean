import Homelab.BackupRun
import Homelab.RestoreOrder

/-! Restoring what was backed up: the object that a driver reads, the one that
`execRestore` writes for the recorded entry, and when they are the same. -/
namespace Homelab
open Js Path Shell Dialogue

/-! ### The objects of a command -/

/-- What a backup is taken of. -/
inductive StoredObject
  | database (name : JsString)
  | file (place : List JsString)
  | volume (name : JsString)
  | directory (place : List JsString)
  | dataset (name : JsString)
  | vm (id : JsString)
  | cluster (host : JsString)
  | graph (name : JsString)
  | vault
  | unquoted (word : JsString)
deriving DecidableEq

/-- The directory that a word names; a word that the shell takes apart names none. -/
def wordDirectory (home word : JsString) : StoredObject :=
  if word.all isSafeUnit then .directory (locate home word) else .unquoted word

/-- The source of a mount `<source>:<target>`. -/
def mountSource (mount : JsString) : StoredObject := .volume (mount.takeWhile (· ≠ 0x3A))

/-- The dataset of a snapshot `<dataset>@<name>`. -/
def datasetOf (snapshot : JsString) : StoredObject := .dataset (snapshot.takeWhile (· ≠ 0x40))

/-- The host of a quoted URL. -/
def urlHost (url : JsString) : StoredObject :=
  .cluster ((url.drop (js "\"http://").length).takeWhile (· ≠ slash))

/-- The programs that read what is backed up, with the argument that names it; paths are those
of a shell that starts in `home`. -/
def readers (home : JsString) : List (JsString × ℕ × (JsString → StoredObject)) :=
  [(js "pg_dump", 0, .database), (js "cp", 0, fun p => .file (locate home p)),
    (js "docker", 3, mountSource), (js "tar", 3, wordDirectory home),
    (js "zfs", 1, datasetOf), (js "vzdump", 0, .vm), (js "curl", 3, urlHost),
    (js "neo4j-admin", 2, .graph), (js "vault", 0, fun _ => .vault)]

/-- The programs that write what is restored. -/
def writers (home : JsString) : List (JsString × ℕ × (JsString → StoredObject)) :=
  [(js "psql", 0, .database), (js "pg_restore", 2, .database),
    (js "cp", 1, fun p => .file (locate home p)), (js "qmrestore", 1, .vm),
    (js "docker", 3, mountSource), (js "zfs", 2, datasetOf), (js "vault", 0, fun _ => .vault),
    (js "neo4j-admin", 3, fun flag => .graph (flag.drop (js "--database=").length)),
    (js "tar", 3, wordDirectory home)]

/-- The object of a program that is in the table. -/
def objectOf (table : List (JsString × ℕ × (JsString → StoredObject))) :
    List JsString → Option StoredObject
  | [] => none
  | program :: args => (table.lookup program).bind fun entry => args[entry.1]?.map entry.2

def objectsOf (table : List (JsString × ℕ × (JsString → StoredObject))) (s : Script JsString) :
    List StoredObject := s.programs.filterMap (objectOf table)

/-- What a command of a driver reads to produce its artifact. -/
def Ask.objectsRead (home : JsString) : Ask → List StoredObject
  | .now => []
  | .command role script => if role.produces then objectsOf (readers home) script else []

/-- What a restoring command writes. -/
def RestoreAsk.objectsWritten (home : JsString) : RestoreAsk → List StoredObject
  | .exec (.restore _) script => objectsOf (writers home) script
  | _ => []

def objectsRead (home : JsString) (log : List (Exchange HostAnswer)) : List StoredObject :=
  log.flatMap fun x => x.ask.objectsRead home

def objectsWritten (home : JsString) (log : List (Exchange RestoreAnswer)) : List StoredObject :=
  log.flatMap fun x => x.ask.objectsWritten home

/-! ### What a driver reads -/

/-- The object that the driver reads, by its parameters and the target. -/
def sourceObject (home : JsString) (input : BackupDriverInput) : Driver → StoredObject
  | .postgres => .database (input.param (js "db") input.target)
  | .redis => .file (locate home (input.param (js "rdb_path") (js "/var/lib/redis/dump.rdb")))
  | .dockerVolume => mountSource (input.param (js "volume") input.target ++ js ":/data")
  | .unraidShare => wordDirectory home (input.param (js "path") (js "/mnt/user/" ++ input.target))
  | .filesystem => wordDirectory home (input.param (js "path") (js "/" ++ input.target))
  | .zfsDataset => datasetOf (input.param (js "dataset") input.target)
  | .proxmoxVm => .vm (input.param (js "vmid") input.target)
  | .opensearch => .cluster ((input.param (js "host") (js "localhost:9200")).takeWhile (· ≠ slash))
  | .neo4j => .graph (input.param (js "db") (js "neo4j"))
  | .vaultRaft => .vault

variable {home : JsString} {input : BackupDriverInput}

theorem takeWhile_append_cons {α : Type} {p : α → Bool} {a : α} (hp : p a = false) (l rest : List α) :
    (l ++ a :: rest).takeWhile p = l.takeWhile p := by
  induction l with
  | nil => rw [List.nil_append, List.takeWhile_cons, hp]; rfl
  | cons b l ih =>
    rw [List.cons_append, List.takeWhile_cons, List.takeWhile_cons, ih]

/-- A snapshot is one of the dataset that its name starts with. -/
theorem datasetOf_snapshot (dataset t : JsString) :
    datasetOf (dataset ++ js "@backup-" ++ t) = datasetOf dataset := by
  rw [datasetOf, datasetOf, List.append_assoc]
  exact congrArg StoredObject.dataset (takeWhile_append_cons rfl dataset _)

theorem urlHost_snapshot (host repo t : JsString) :
    urlHost (js "\"http://" ++ (host ++ js "/_snapshot/" ++ repo ++ js "/snap-" ++ t) ++
      js "?wait_for_completion=true\"") = .cluster (host.takeWhile (· ≠ slash)) := by
  rw [urlHost, List.append_assoc, List.drop_left]
  simp only [List.append_assoc]
  exact congrArg StoredObject.cluster (takeWhile_append_cons rfl host _)

def OnlyReads (home : JsString) (o : StoredObject) (q : Ask) : Prop :=
  ∀ o' ∈ q.objectsRead home, o' = o

theorem measured_onlyReads (o : StoredObject) (path : JsString) :
    (measured path).Asks (OnlyReads home o) := by
  have hnone {role : Role} {script : Script JsString} (hrole : role.produces = false) :
      OnlyReads home o (.command role script) := by
    intro o' ho'
    rw [Ask.objectsRead, hrole] at ho'
    exact absurd ho' List.not_mem_nil
  exact asks_bind (asks_execOrThrow (hnone rfl)) fun _ =>
    asks_bind (asks_execOrThrow (hnone rfl)) fun _ => trivial

theorem onlyReads_command {role : Role} {script : Script JsString} {o : StoredObject}
    (h : objectsOf (readers home) script = [o] ∨ objectsOf (readers home) script = []) :
    OnlyReads home o (.command role script) := by
  intro o' ho'
  rw [Ask.objectsRead] at ho'
  split_ifs at ho'
  · rcases h with h | h
    · rw [h] at ho'
      exact List.mem_singleton.mp ho'
    · rw [h] at ho'
      exact absurd ho' List.not_mem_nil
  · exact absurd ho' List.not_mem_nil

/-- The commands of a driver read its source and nothing else. -/
theorem backup_onlyReads (d : Driver) :
    (d.backup input).Asks (OnlyReads home (sourceObject home input d)) := by
  have hexec {β : Type} {role : Role} {script : Script JsString} {o : StoredObject}
      {f : JsString → Remote β}
      (h : objectsOf (readers home) script = [o] ∨ objectsOf (readers home) script = [])
      (hf : ∀ out, (f out).Asks (OnlyReads home o)) :
      (execOrThrow role script >>= f).Asks (OnlyReads home o) :=
    asks_bind (asks_execOrThrow (onlyReads_command h)) hf
  have hnow (o : StoredObject) : OnlyReads home o .now := fun _ ho => absurd ho List.not_mem_nil
  have hdataset (t : JsString) := datasetOf_snapshot (input.param (js "dataset") input.target) t
  cases d with
  | postgres =>
    exact ⟨hnow _, fun t => hexec (Or.inl rfl) fun _ => measured_onlyReads _ _⟩
  | redis =>
    refine ⟨hnow _, fun t => hexec (Or.inr rfl) fun _ => hexec (Or.inr rfl) fun _ => ?_⟩
    exact hexec (Or.inl rfl) fun _ => measured_onlyReads _ _
  | dockerVolume =>
    exact ⟨hnow _, fun t => hexec (Or.inl rfl) fun _ => measured_onlyReads _ _⟩
  | unraidShare =>
    exact ⟨hnow _, fun t => hexec (Or.inl rfl) fun _ => measured_onlyReads _ _⟩
  | filesystem =>
    exact ⟨hnow _, fun t => hexec (Or.inl rfl) fun _ => measured_onlyReads _ _⟩
  | zfsDataset =>
    refine ⟨hnow _, fun t => ⟨hnow _, fun u => ?_⟩⟩
    have hsnapshot := congrArg (fun o => [o]) (hdataset (countText t))
    exact hexec (Or.inl hsnapshot) fun _ => hexec (Or.inl hsnapshot) fun _ => measured_onlyReads _ _
  | proxmoxVm =>
    refine ⟨hnow _, fun t => hexec (Or.inl rfl) fun _ => hexec (Or.inr rfl) fun _ => ?_⟩
    exact measured_onlyReads _ _
  | opensearch =>
    refine ⟨hnow _, fun t => hexec (Or.inl ?_) fun _ => trivial⟩
    exact congrArg (fun o => [o]) (urlHost_snapshot _ _ _)
  | neo4j =>
    refine ⟨hnow _, fun t => hexec (Or.inl rfl) fun _ => hexec (Or.inr rfl) fun _ => ?_⟩
    exact measured_onlyReads _ _
  | vaultRaft =>
    exact ⟨hnow _, fun t => hexec (Or.inl rfl) fun _ => measured_onlyReads _ _⟩

/-- A driver that returns has read its source. -/
theorem backup_reads (d : Driver) : Surely MayAnswer
    (fun x => sourceObject home input d ∈ x.ask.objectsRead home) (d.backup input) := by
  have hexec {β : Type} {role : Role} {script : Script JsString} {o : StoredObject}
      {f : JsString → Remote β} (hrole : role.produces = true)
      (h : objectsOf (readers home) script = [o]) :
      Surely MayAnswer (fun x => o ∈ x.ask.objectsRead home) (execOrThrow role script >>= f) := by
    refine surely_bind (Or.inl (surely_exec fun reply _ => ?_))
    rw [Ask.objectsRead, if_pos hrole, h]
    exact List.mem_singleton_self o
  cases d <;> refine surely_bind (Or.inr fun t => ?_)
  case zfsDataset =>
    refine surely_bind (Or.inr fun u => ?_)
    exact hexec rfl (congrArg (fun o => [o]) (datasetOf_snapshot _ _))
  case redis =>
    exact surely_bind (Or.inr fun _ => surely_bind (Or.inr fun _ => hexec rfl rfl))
  case opensearch => exact hexec rfl (congrArg (fun o => [o]) (urlHost_snapshot _ _ _))
  all_goals exact hexec rfl rfl

/-- What a finished driver has read is its source. -/
theorem mem_objectsRead {d : Driver} {log : List (Exchange HostAnswer)} {a : Artifact}
    (h : Talks MayAnswer (d.backup input) log (.ok a)) (o : StoredObject) :
    o ∈ objectsRead home log ↔ o = sourceObject home input d := by
  constructor
  · intro ho
    obtain ⟨x, hx, ho⟩ := List.mem_flatMap.mp ho
    exact ((backup_onlyReads d).of_mem h x hx).1 o ho
  · rintro rfl
    obtain ⟨x, hx, ho⟩ := backup_reads d _ _ h
    exact List.mem_flatMap.mpr ⟨x, hx, ho⟩

/-! ### What a restore writes -/

/-- The object that `execRestore` writes for an entry of this platform and target, if it does
not refuse. -/
def restoredObject (home platform target : JsString) : Option StoredObject :=
  match restoreBranch (.str platform) with
  | .postgres => some (.database target)
  | .redis => some (.file (locate home (js "/var/lib/redis/dump.rdb")))
  | .proxmox => some (.vm target)
  | .dockerVolume => some (mountSource (target ++ js ":/data"))
  | .zfsDataset => some (datasetOf target)
  | .vaultRaft => some .vault
  | .neo4j => some (.graph target)
  | .opensearch => none
  | .directory => some (wordDirectory home (js "/" ++ target))
  | .other => some (wordDirectory home (js "/restore/" ++ platform ++ js "/" ++ target))

/-- An entry that `runBackup` can have recorded, by the fields that a restore reads. -/
structure RecordedFor (input : BackupDriverInput) (entry : JsValue) : Prop where
  platform : property (js "platform") entry = .str input.platform
  target : property (js "target_id") entry = .str input.target
  location : ∃ s, property (js "location") entry = .str s

variable {rt : BackupRuntime} {entry : JsValue}

theorem recordBackup_fields {site : BackupSite} {targetType : JsString} {a : Artifact}
    {files files' : Files} {result : BackupDriverResult}
    (h : recordBackup site targetType input a files = .ok (result, files')) :
    RecordedFor input result.entry := by
  rw [recordBackup] at h
  cases hsign : signManifestEntry site.rt (recordOf site.rt targetType input a).unsigned with
  | error message =>
    rw [hsign] at h
    cases h
  | ok fields =>
    rw [hsign] at h
    dsimp only at h
    cases happend : appendManifestEntry site.rt site.faults (manifestPlace site.cwd input.dataDir)
      (.obj fields) files with
    | error e =>
      rw [happend] at h
      cases h
    | ok files'' =>
      rw [happend] at h
      cases h
      rw [signManifestEntry] at hsign
      cases hdigest : entryDigest site.rt (recordOf site.rt targetType input a).unsigned with
      | error e =>
        rw [hdigest] at hsign
        cases hsign
      | ok digest =>
        rw [hdigest] at hsign
        cases hsign
        exact ⟨rfl, rfl, _, rfl⟩

def OnlyWrites (home : JsString) (o : StoredObject) (q : RestoreAsk) : Prop :=
  ∀ o' ∈ q.objectsWritten home, o' = o

/-- All that the restore can write is the object, it does not return without having written it,
and it can return. -/
structure RestoresTo (home : JsString) (rt : BackupRuntime) (entry : JsValue) (o : StoredObject)
    (m : Restore Unit) : Prop where
  only : m.Asks (OnlyWrites home o)
  surely : Surely (MayRestore rt entry) (fun x => o ∈ x.ask.objectsWritten home) m
  possible : ∃ log, Talks (MayRestore rt entry) m log (.ok ())

theorem onlyWrites_exec {fromEntry : Bool} {script : Script JsString} {o : StoredObject}
    (h : objectsOf (writers home) script = [o] ∨ objectsOf (writers home) script = []) :
    OnlyWrites home o (.exec (.restore fromEntry) script) := by
  intro o' ho'
  change o' ∈ objectsOf (writers home) script at ho'
  rcases h with h | h
  · rw [h] at ho'
    exact List.mem_singleton.mp ho'
  · rw [h] at ho'
    exact absurd ho' List.not_mem_nil

theorem restoreCommand_succeeds (fromEntry : Bool) (script : Script JsString) :
    Talks (MayRestore rt entry) (restoreCommand fromEntry script)
      [⟨.exec (.restore fromEntry) script, .ok ⟨0, [], []⟩⟩] (.ok ()) :=
  .ask trivial (.done ())

/-- A command that is sent is in the log, also when it fails. -/
theorem surely_restoreCommand {fromEntry : Bool} {script : Script JsString} {o : StoredObject}
    (h : objectsOf (writers home) script = [o]) :
    Surely (MayRestore rt entry) (fun x => o ∈ x.ask.objectsWritten home)
      (restoreCommand fromEntry script) := by
  intro log u hrun
  obtain ⟨answer, rest, _, _, rfl⟩ := talks_ask.mp hrun
  refine ⟨_, List.mem_cons_self .., ?_⟩
  change o ∈ objectsOf (writers home) script
  rw [h]
  exact List.mem_singleton_self o

/-- A restore by one command that writes one object. -/
theorem restoresTo_command {fromEntry : Bool} {script : Script JsString} {o : StoredObject}
    (h : objectsOf (writers home) script = [o]) :
    RestoresTo home rt entry o (restoreCommand fromEntry script) where
  only := asks_restoreCommand (onlyWrites_exec (Or.inl h))
  surely := surely_restoreCommand h
  possible := ⟨_, restoreCommand_succeeds fromEntry script⟩

/-- A command that writes nothing can stand before or after a restore. -/
theorem RestoresTo.after {fromEntry : Bool} {script : Script JsString} {o : StoredObject}
    {m : Restore Unit} (h : RestoresTo home rt entry o m)
    (hscript : objectsOf (writers home) script = []) :
    RestoresTo home rt entry o ((restoreCommand fromEntry script).bind fun _ => m) where
  only := asks_bind (asks_restoreCommand (onlyWrites_exec (Or.inr hscript))) fun _ => h.only
  surely := surely_bind (Or.inr fun _ => h.surely)
  possible := by
    obtain ⟨log, hlog⟩ := h.possible
    have hfirst : Talks (MayRestore rt entry) (restoreCommand fromEntry script) _ (.ok ()) :=
      restoreCommand_succeeds fromEntry script
    exact ⟨_, talks_bind.mpr (Or.inr ⟨(), _, log, hfirst, hlog, rfl⟩)⟩

theorem RestoresTo.before {fromEntry : Bool} {script : Script JsString} {o : StoredObject}
    {m : Restore Unit} (h : RestoresTo home rt entry o m)
    (hscript : objectsOf (writers home) script = []) :
    RestoresTo home rt entry o (m.bind fun _ => restoreCommand fromEntry script) where
  only := asks_bind h.only fun _ => asks_restoreCommand (onlyWrites_exec (Or.inr hscript))
  surely := surely_bind (Or.inl h.surely)
  possible := by
    obtain ⟨log, hlog⟩ := h.possible
    have hlast : Talks (MayRestore rt entry) (restoreCommand fromEntry script) _ (.ok ()) :=
      restoreCommand_succeeds fromEntry script
    exact ⟨_, talks_bind.mpr (Or.inr ⟨(), log, _, hlog, hlast, rfl⟩)⟩

/-- `execRestore` writes the object that its table of platforms says. -/
theorem execRestore_restoresTo {o : StoredObject} (hrecorded : RecordedFor input entry)
    (ho : restoredObject home input.platform input.target = some o) :
    RestoresTo home rt entry o (execRestore entry) := by
  obtain ⟨hplatform, htarget, location, hlocation⟩ := hrecorded
  have htext : fieldText entry (js "target_id") = input.target := by
    rw [fieldText, htarget, JsValue.coerce]
  have hplatformText : fieldText entry (js "platform") = input.platform := by
    rw [fieldText, hplatform, JsValue.coerce]
  have hcommand (script : Script JsString) (h : objectsOf (writers home) script = [o]) :
      RestoresTo home rt entry o (restoreCommand true script) := restoresTo_command h
  rw [restoredObject] at ho
  rw [execRestore, hplatform, htext, hplatformText]
  cases hbranch : restoreBranch (.str input.platform) with
  | postgres =>
    rw [hbranch] at ho
    obtain rfl := Option.some.inj ho
    dsimp only
    split_ifs
    · exact hcommand _ rfl
    · exact hcommand _ rfl
  | redis =>
    rw [hbranch] at ho
    obtain rfl := Option.some.inj ho
    have hcopy := hcommand (.run [js "cp", fieldText entry (js "location"),
      js "/var/lib/redis/dump.rdb"]) rfl
    exact (hcopy.before rfl).after rfl
  | dockerVolume =>
    rw [hbranch] at ho
    obtain rfl := Option.some.inj ho
    dsimp only
    rw [dockerExtract, hlocation]
    exact hcommand _ rfl
  | opensearch =>
    rw [hbranch] at ho
    cases ho
  | _ =>
    rw [hbranch] at ho
    obtain rfl := Option.some.inj ho
    exact hcommand _ rfl

/-- The one platform without an object is refused before anything is sent. -/
theorem execRestore_refuses (hrecorded : RecordedFor input entry)
    (ho : restoredObject home input.platform input.target = none) :
    ∃ e, execRestore entry = .fail e := by
  rw [restoredObject] at ho
  rw [execRestore, hrecorded.platform]
  cases hbranch : restoreBranch (.str input.platform) with
  | opensearch =>
    dsimp only
    cases buildDrRunbook entry with
    | error message => exact ⟨_, rfl⟩
    | ok text => exact ⟨_, rfl⟩
  | _ =>
    rw [hbranch] at ho
    cases ho

/-! ### Backup and restore -/

/-- Every restore of the entry throws before it sends anything, or writes nothing but what was
read and does not return without having written it. -/
def Inverts (home : JsString) (rt : BackupRuntime) (entry : JsValue)
    (backupLog : List (Exchange HostAnswer)) : Prop :=
  ∀ log r, Talks (MayRestore rt entry) (execRestore entry) log r →
    (log = [] ∧ ∃ e, r = .error e) ∨
    ((∀ o ∈ objectsWritten home log, o ∈ objectsRead home backupLog) ∧
      (r = .ok () → ∀ o ∈ objectsRead home backupLog, o ∈ objectsWritten home log))

theorem runBackup_recorded {site : BackupSite} {d : Driver} {files files' : Files}
    {log : List (Exchange HostAnswer)} {result : BackupDriverResult}
    (h : Talks MayAnswer (runBackup site d.targetType input files) log (.ok (result, files'))) :
    (∃ a, Talks MayAnswer (d.backup input) log (.ok a)) ∧ RecordedFor input result.entry := by
  rcases runBackup_run h with ⟨_, _, hcontra⟩ | ⟨a, hdriver, hresult⟩
  · cases hcontra
  · exact ⟨⟨a, hdriver⟩, recordBackup_fields hresult.symm⟩

/-- What the restore writes is what the finished driver has read, or it refuses, exactly when
both know the same object. -/
theorem inverts_iff {d : Driver} {log : List (Exchange HostAnswer)} {a : Artifact}
    (hdriver : Talks MayAnswer (d.backup input) log (.ok a)) (hrecorded : RecordedFor input entry) :
    Inverts home rt entry log ↔
      ∀ o, restoredObject home input.platform input.target = some o → o = sourceObject home input d := by
  cases hrestored : restoredObject home input.platform input.target with
  | none =>
    obtain ⟨e, hfail⟩ := execRestore_refuses hrecorded hrestored
    constructor
    · intro _ o ho
      cases ho
    · intro _ log' r hrun
      rw [hfail] at hrun
      obtain ⟨rfl, rfl⟩ := talks_fail.mp hrun
      exact Or.inl ⟨rfl, e, rfl⟩
  | some o =>
    have hto : RestoresTo home rt entry o (execRestore entry) :=
      execRestore_restoresTo hrecorded hrestored
    have hwritten {log' : List (Exchange RestoreAnswer)}
        (hrun : Talks (MayRestore rt entry) (execRestore entry) log' (.ok ())) :
        o ∈ objectsWritten home log' := by
      obtain ⟨x, hx, hox⟩ := hto.surely _ _ hrun
      exact List.mem_flatMap.mpr ⟨x, hx, hox⟩
    constructor
    · intro hinverts o' ho'
      obtain rfl := Option.some.inj ho'
      obtain ⟨log', hrun⟩ := hto.possible
      rcases hinverts _ _ hrun with ⟨_, _, hcontra⟩ | ⟨hsub, _⟩
      · cases hcontra
      · exact (mem_objectsRead hdriver o).mp (hsub o (hwritten hrun))
    · intro hsame log' r hrun
      obtain rfl := hsame o rfl
      refine Or.inr ⟨fun o' ho' => ?_, ?_⟩
      · obtain ⟨x, hx, hox⟩ := List.mem_flatMap.mp ho'
        have hwrites := (hto.only.of_mem hrun x hx).1 o' hox
        exact (mem_objectsRead hdriver o').mpr hwrites
      · rintro rfl o' ho'
        rw [(mem_objectsRead hdriver o').mp ho']
        exact hwritten hrun

/-- A recorded entry is restored to what was read, or refused, exactly when the object that the
restore knows from the platform and the target id is the one that the driver knows from its
type, the target id and the parameters. -/
theorem restore_inverts_iff (home : JsString) (rt : BackupRuntime) (site : BackupSite) (d : Driver)
    (input : BackupDriverInput) (files files' : Files) (log : List (Exchange HostAnswer))
    (result : BackupDriverResult)
    (h : Talks MayAnswer (runBackup site d.targetType input files) log (.ok (result, files'))) :
    Inverts home rt result.entry log ↔
      ∀ o, restoredObject home input.platform input.target = some o → o = sourceObject home input d := by
  obtain ⟨⟨a, hdriver⟩, hrecorded⟩ := runBackup_recorded h
  exact inverts_iff hdriver hrecorded

/-! ### A share that is restored elsewhere -/

/-- A share `app`, as it is backed up without parameters. -/
def shareInput : BackupDriverInput :=
  ⟨plainWord, js "unraid-share", fun _ => none, plainWord, js "/d"⟩

def sharePath : JsString := shareInput.destPath (js "unraid-share-app-5.tar.gz")

def shareLog : List (Exchange HostAnswer) :=
  [⟨.now, (5 : ℕ)⟩,
    succeeds (.creates sharePath)
      [js "tar", js "czf", sharePath, js "-C", js "/mnt/user/app", js "."],
    succeeds .inspects [js "stat", js "-c", js "%s", sharePath],
    ⟨.command .inspects (.pipe (.run [js "sha256sum", sharePath])
        (.run [js "awk", js "'\x7bprint $1\x7d'"])),
      .ok ⟨[exited [js "sha256sum", sharePath] 0, exited [js "awk", js "'\x7bprint $1\x7d'"] 0],
        ⟨0, [], [], true⟩⟩⟩]

theorem shareLog_run : ∃ result, Talks MayAnswer
    (runBackup plainSite Driver.unraidShare.targetType shareInput fun _ => none) shareLog
      (.ok result) := by
  have hcan : CanRecord plainSite shareInput (fun _ => none) :=
    ⟨⟨_, rfl⟩, ⟨_, rfl⟩, rfl, rfl, [], rfl⟩
  obtain ⟨result, hresult⟩ : ∃ result, recordBackup plainSite Driver.unraidShare.targetType
      shareInput ⟨sharePath, 0, []⟩ (fun _ => none) = .ok result := recordBackup_iff.mpr hcan
  have hrun (words : List JsString) :
      Exec MayCome (.run words) [exited words 0] (exited words 0).outcome :=
    .run (exited_mayCome words 0)
  have hdriver : Talks MayAnswer (unraidShareDriver shareInput) shareLog
      (.ok ⟨sharePath, 0, []⟩) :=
    .ask trivial (.ask (hrun _) (.ask (hrun _) (.ask (.pipe (hrun _) (hrun _)) (.done _))))
  refine ⟨result, ?_⟩
  rw [runBackup, getDriver_targetType]
  have hattempt : Talks MayAnswer (unraidShareDriver shareInput).attempt shareLog
      (.ok (.ok ⟨sharePath, 0, []⟩) : Except BackupError (Except JsString Artifact)) :=
    talks_attempt.mpr ⟨_, hdriver, rfl⟩
  refine talks_bind.mpr (Or.inr ⟨_, shareLog, [], hattempt, ?_, (List.append_nil _).symm⟩)
  dsimp only
  rw [hresult]
  exact .done result

/-- The theorem on that run: the driver reads `/mnt/user/app`, the restore writes `/app`. -/
theorem restore_inverts_share : ∃ result files',
    Talks MayAnswer (runBackup plainSite Driver.unraidShare.targetType shareInput fun _ => none)
      shareLog (.ok (result, files')) ∧
    (Inverts (js "/") january result.entry shareLog ↔
      ∀ o, restoredObject (js "/") shareInput.platform shareInput.target = some o →
        o = sourceObject (js "/") shareInput .unraidShare) := by
  obtain ⟨⟨result, files'⟩, hrun⟩ := shareLog_run
  exact ⟨result, files', hrun,
    restore_inverts_iff (js "/") january plainSite .unraidShare shareInput _ files' _ result hrun⟩

theorem share_elsewhere :
    ¬ ∀ o, restoredObject (js "/") shareInput.platform shareInput.target = some o →
      o = sourceObject (js "/") shareInput .unraidShare := by
  intro h
  have hcontra := h (.directory [js "app"]) (by decide)
  revert hcontra
  decide

/-- A share that was backed up is restored to a directory outside of all shares. -/
theorem restore_inverts_fails : ¬ ∀ (home : JsString) (rt : BackupRuntime) (site : BackupSite)
    (d : Driver) (input : BackupDriverInput) (files files' : Files)
    (log : List (Exchange HostAnswer)) (result : BackupDriverResult),
    Talks MayAnswer (runBackup site d.targetType input files) log (.ok (result, files')) →
      Inverts home rt result.entry log := by
  intro h
  obtain ⟨⟨result, files'⟩, hrun⟩ := shareLog_run
  have hinverts := h (js "/") january _ _ _ _ _ _ _ hrun
  obtain ⟨⟨a, hdriver⟩, hrecorded⟩ := runBackup_recorded hrun
  exact share_elsewhere ((inverts_iff hdriver hrecorded).mp hinverts)

end Homelab
