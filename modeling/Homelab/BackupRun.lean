import Homelab.BackupEngine
import Homelab.BackupSound
import Homelab.ManifestFile

/-! `runBackup` from its driver to the manifest: which runs record an entry, and when a
recorded backup is a successful one. -/
namespace Homelab
open Js Path Shell Dialogue

/-! ### What comes of the programs -/

/-- What did its work has exited with zero. The converse fails for `curl`, which is run without
`-f` and exits with zero when the server answers with an error. -/
def MayCome (words : List JsString) (o : Outcome JsString) : Prop :=
  (o.worked = true → o.status = 0) ∧
    (words.head? ≠ some (js "curl") → o.status = 0 → o.worked = true)

def MayAnswer : ∀ q : Ask, HostAnswer q → Prop
  | .now, _ => True
  | .command _ _, .error _ => True
  | .command _ script, .ok reply => Exec MayCome script reply.ran reply.outcome

/-- The command of the exchange, if it was one, has exited with zero. -/
def ExitedZero : Exchange HostAnswer → Prop
  | ⟨.now, _⟩ => True
  | ⟨.command _ _, .error _⟩ => False
  | ⟨.command _ _, .ok reply⟩ => reply.outcome.status = 0

/-- The programs of an exchange that are part of producing the artifact. -/
def producersOf : Exchange HostAnswer → List (Ran JsString)
  | ⟨.now, _⟩ => []
  | ⟨.command _ _, .error _⟩ => []
  | ⟨.command role _, .ok reply⟩ => if role.produces then reply.ran else []

def producers (log : List (Exchange HostAnswer)) : List (Ran JsString) := log.flatMap producersOf

/-! ### `runBackup` -/

/-- What the engine finds on its own machine. -/
structure BackupSite where
  rt : BackupRuntime
  cwd : JsString
  faults : ManifestFaults

structure BackupDriverResult where
  artifact : Artifact
  entry : JsValue

/-- `manifestPath(dataDir)` -/
def manifestPlace (cwd dataDir : JsString) : List JsString :=
  locate cwd (join [dataDir, js "backup-manifest.json"])

def recordOf (rt : BackupRuntime) (targetType : JsString) (input : BackupDriverInput)
    (a : Artifact) : BackupRecord :=
  ⟨input.platform, input.target, targetType, rt.isoNow, a.artifactPath, a.sizeBytes, a.checksum⟩

/-- The part of `runBackup` that follows the driver: signing the entry and appending it. -/
def recordBackup (site : BackupSite) (targetType : JsString) (input : BackupDriverInput)
    (a : Artifact) (files : Files) : Except BackupError (BackupDriverResult × Files) :=
  match signManifestEntry site.rt (recordOf site.rt targetType input a).unsigned with
  | .error message => .error (.error message)
  | .ok fields =>
    match appendManifestEntry site.rt site.faults (manifestPlace site.cwd input.dataDir)
      (.obj fields) files with
    | .error e => .error e
    | .ok files' => .ok (⟨a, .obj fields⟩, files')

/-- `_registry.get(targetType)` -/
def getDriver (targetType : JsString) : Option Driver :=
  Driver.all.find? fun d => d.targetType = targetType

def noDriver (targetType : JsString) : BackupError :=
  .error (js "No backup driver registered for targetType=\"" ++ targetType ++ js "\". " ++
    js "Registered types: " ++ List.intercalate (js ", ") (Driver.all.map Driver.targetType))

/-- `runBackup`; `files` are those that it finds when its driver has returned, and what it
returns includes the files that it leaves. -/
def runBackup (site : BackupSite) (targetType : JsString) (input : BackupDriverInput)
    (files : Files) : Dialogue HostAnswer BackupError (BackupDriverResult × Files) :=
  match getDriver targetType with
  | none => .fail (noDriver targetType)
  | some driver => (driver.backup input).attempt.bind fun result =>
    match result with
    | .error message => .fail (.error message)
    | .ok a => .give (recordBackup site targetType input a files)

theorem getDriver_targetType (d : Driver) : getDriver d.targetType = some d := by
  cases d <;> decide

/-! ### Recording an entry -/

/-- Nothing on the engine's own machine stands in the way of an entry. -/
structure CanRecord (site : BackupSite) (input : BackupDriverInput) (files : Files) : Prop where
  secret : ∃ key, getSecret site.rt = .ok key
  limit : ∃ t, encode (freshnessOf input.platform) = .ok t
  mkdir : site.faults.mkdir = none
  write : site.faults.write = none
  read : ∃ entries, readManifest site.rt
    (readFileAt files site.faults.read (manifestPlace site.cwd input.dataDir)) = .ok entries

variable {site : BackupSite} {input : BackupDriverInput} {files : Files}

theorem recordBackup_iff {targetType : JsString} {a : Artifact} :
    (∃ result, recordBackup site targetType input a files = .ok result) ↔
      CanRecord site input files := by
  have hsigned : (∃ entry, (recordOf site.rt targetType input a).Signed site.rt entry) ↔ _ :=
    BackupRecord.signed_iff
  rw [recordBackup]
  cases hsign : signManifestEntry site.rt (recordOf site.rt targetType input a).unsigned with
  | error message =>
    -- without a secret or with a function as its limit there is no entry
    constructor
    · intro h
      obtain ⟨_, h⟩ := h
      cases h
    · intro h
      obtain ⟨_, fields, hfields, _⟩ := hsigned.mpr ⟨h.secret, h.limit⟩
      rw [hsign] at hfields
      cases hfields
  | ok fields =>
    obtain ⟨hsecret, hlimit⟩ := hsigned.mp ⟨_, fields, hsign, rfl⟩
    have happend (files' : Files) : appendManifestEntry site.rt site.faults
        (manifestPlace site.cwd input.dataDir) (.obj fields) files = .ok files' ↔ _ :=
      appendManifestEntry_iff
    dsimp only
    cases hfiles : appendManifestEntry site.rt site.faults (manifestPlace site.cwd input.dataDir)
      (.obj fields) files with
    | error e =>
      constructor
      · intro h
        obtain ⟨_, h⟩ := h
        cases h
      · intro h
        obtain ⟨entries, hread⟩ := h.read
        have hok := (happend _).mpr ⟨h.mkdir, h.write, entries, hread, rfl⟩
        rw [hfiles] at hok
        cases hok
    | ok files' =>
      obtain ⟨hmkdir, hwrite, entries, hread, _⟩ := (happend files').mp hfiles
      exact ⟨fun _ => ⟨hsecret, hlimit, hmkdir, hwrite, entries, hread⟩, fun _ => ⟨_, rfl⟩⟩

/-! ### A driver returns when all its commands exit with zero -/

/-- The computation goes on exactly as long as its commands exit with zero. -/
def Strict {α : Type} (m : Remote α) : Prop :=
  ∀ log r, Talks MayAnswer m log r → ((∃ a, r = .ok a) ↔ ∀ x ∈ log, ExitedZero x)

theorem strict_pure {α : Type} (a : α) : Strict (pure a : Remote α) := by
  intro log r h
  obtain ⟨rfl, rfl⟩ := talks_done.mp h
  exact ⟨fun _ x hx => absurd hx List.not_mem_nil, fun _ => ⟨a, rfl⟩⟩

theorem strict_bind {α β : Type} {m : Remote α} {f : α → Remote β} (hm : Strict m)
    (hf : ∀ a, Strict (f a)) : Strict (m >>= f) := by
  intro log r h
  rcases talks_bind.mp h with ⟨e, hfirst, rfl⟩ | ⟨a, first, second, hfirst, hsecond, rfl⟩
  · have hfailed := hm _ _ hfirst
    constructor
    · intro hok
      obtain ⟨_, hok⟩ := hok
      cases hok
    · intro hzero
      obtain ⟨_, hok⟩ := hfailed.mpr hzero
      cases hok
  · have hzero := (hm _ _ hfirst).mp ⟨a, rfl⟩
    rw [hf a _ _ hsecond]
    constructor
    · intro hsecondZero x hx
      rcases List.mem_append.mp hx with hx | hx
      · exact hzero x hx
      · exact hsecondZero x hx
    · exact fun hall x hx => hall x (List.mem_append_right _ hx)

theorem strict_dateNow : Strict dateNow := by
  intro log r h
  obtain ⟨t, rest, _, hrest, rfl⟩ := talks_ask.mp h
  obtain ⟨rfl, rfl⟩ := talks_done.mp hrest
  refine ⟨fun _ => ?_, fun _ => ⟨t, rfl⟩⟩
  rw [List.forall_mem_singleton]
  trivial

theorem strict_execOrThrow (role : Role) (script : Script JsString) :
    Strict (execOrThrow role script) := by
  intro log r h
  obtain ⟨answer, rest, _, hrest, rfl⟩ := talks_ask.mp h
  cases answer with
  | error message =>
    obtain ⟨rfl, rfl⟩ := talks_fail.mp hrest
    constructor
    · intro hok
      obtain ⟨_, hok⟩ := hok
      cases hok
    · exact fun hzero => absurd (hzero _ (List.mem_cons_self ..)) id
  | ok reply =>
    dsimp only at hrest
    split_ifs at hrest with hstatus
    · obtain ⟨rfl, rfl⟩ := talks_fail.mp hrest
      constructor
      · intro hok
        obtain ⟨_, hok⟩ := hok
        cases hok
      · exact fun hzero => absurd (hzero _ (List.mem_cons_self ..)) hstatus
    · obtain ⟨rfl, rfl⟩ := talks_done.mp hrest
      refine ⟨fun _ => ?_, fun _ => ⟨_, rfl⟩⟩
      rw [List.forall_mem_singleton]
      exact not_not.mp hstatus

theorem strict_measured (path : JsString) : Strict (measured path) := by
  apply strict_bind (strict_execOrThrow _ _)
  intro sizeRaw
  apply strict_bind (strict_execOrThrow _ _)
  exact fun checksumRaw => strict_pure _

theorem backup_strict (d : Driver) (input : BackupDriverInput) : Strict (d.backup input) := by
  have hexec {β : Type} {role : Role} {script : Script JsString} {f : JsString → Remote β}
      (hf : ∀ out, Strict (f out)) : Strict (execOrThrow role script >>= f) :=
    strict_bind (strict_execOrThrow role script) hf
  cases d <;> refine strict_bind strict_dateNow fun t => ?_
  case opensearch => exact hexec fun _ => strict_pure _
  case redis => exact hexec fun _ => hexec fun _ => hexec fun _ => strict_measured _
  case zfsDataset =>
    refine strict_bind strict_dateNow fun u => ?_
    exact hexec fun _ => hexec fun _ => strict_measured _
  case proxmoxVm => exact hexec fun _ => hexec fun _ => strict_measured _
  case neo4j => exact hexec fun _ => hexec fun _ => strict_measured _
  all_goals exact hexec fun _ => strict_measured _

/-! ### Drivers whose commands tell the truth -/

/-- A producing command that exits with zero has produced: its programs all did their work. -/
def TellsTruth : Ask → Prop
  | .now => True
  | .command role script => role.produces = true → Honest MayCome script

theorem honest_words {program : JsString} {args : List JsString} (h : program ≠ js "curl") :
    Honest MayCome (.run (program :: args)) :=
  honest_run fun _ hmay hzero => hmay.2 (fun hcurl => h (Option.some.inj hcurl)) hzero

theorem asks_execOrThrow {P : Ask → Prop} {role : Role} {script : Script JsString}
    (h : P (.command role script)) : (execOrThrow role script).Asks P := by
  refine ⟨h, fun answer => ?_⟩
  cases answer with
  | error message => trivial
  | ok reply =>
    dsimp only
    split_ifs <;> trivial

/-- The drivers that pipe a dump into `gzip`, or ask an HTTP server for the snapshot. -/
def Driver.hides : Driver → Bool
  | .postgres => true
  | .zfsDataset => true
  | .opensearch => true
  | _ => false

theorem measured_truthful (path : JsString) : (measured path).Asks TellsTruth := by
  apply asks_bind (asks_execOrThrow _)
  · intro sizeRaw
    apply asks_bind (asks_execOrThrow _)
    · exact fun checksumRaw => trivial
    · exact fun hproduces => (by cases hproduces)
  · exact fun hproduces => (by cases hproduces)

theorem backup_truthful {d : Driver} (hd : d.hides = false) (input : BackupDriverInput) :
    (d.backup input).Asks TellsTruth := by
  have hrun {β : Type} {role : Role} {program : JsString} {args : List JsString}
      {f : JsString → Remote β} (hprogram : program ≠ js "curl")
      (hf : ∀ out, (f out).Asks TellsTruth) :
      (execOrThrow role (.run (program :: args)) >>= f).Asks TellsTruth :=
    asks_bind (asks_execOrThrow fun _ => honest_words hprogram) hf
  -- waiting and listing commands need not tell the truth
  have hother {β : Type} {role : Role} {script : Script JsString} {f : JsString → Remote β}
      (hrole : role.produces = false) (hf : ∀ out, (f out).Asks TellsTruth) :
      (execOrThrow role script >>= f).Asks TellsTruth := by
    refine asks_bind (asks_execOrThrow fun hproduces => ?_) hf
    rw [hrole] at hproduces
    cases hproduces
  cases d with
  | postgres => cases hd
  | zfsDataset => cases hd
  | opensearch => cases hd
  | redis =>
    refine ⟨trivial, fun t => ?_⟩
    refine hrun (by decide) fun _ => hother rfl fun _ => hrun (by decide) fun _ => ?_
    exact measured_truthful _
  | dockerVolume => exact ⟨trivial, fun t => hrun (by decide) fun _ => measured_truthful _⟩
  | unraidShare => exact ⟨trivial, fun t => hrun (by decide) fun _ => measured_truthful _⟩
  | filesystem => exact ⟨trivial, fun t => hrun (by decide) fun _ => measured_truthful _⟩
  | proxmoxVm =>
    refine ⟨trivial, fun t => hrun (by decide) fun _ => hother rfl fun _ => ?_⟩
    exact measured_truthful _
  | neo4j =>
    refine ⟨trivial, fun t => hrun (by decide) fun _ => hother rfl fun _ => ?_⟩
    exact measured_truthful _
  | vaultRaft => exact ⟨trivial, fun t => hrun (by decide) fun _ => measured_truthful _⟩

theorem mem_producersOf {x : Exchange HostAnswer} {p : Ran JsString} (h : p ∈ producersOf x) :
    ∃ role script reply, role.produces = true ∧ x = ⟨.command role script, .ok reply⟩ ∧
      p ∈ reply.ran := by
  obtain ⟨q, answer⟩ := x
  cases q with
  | now => exact absurd h List.not_mem_nil
  | command role script =>
    cases answer with
    | error message => exact absurd h List.not_mem_nil
    | ok reply =>
      rw [producersOf] at h
      split_ifs at h with hrole
      · exact ⟨role, script, reply, hrole, rfl, h⟩
      · exact absurd h List.not_mem_nil

/-- When such a driver returns, all that was run to produce the artifact did its work. -/
theorem producers_worked {d : Driver} (hd : d.hides = false) {log : List (Exchange HostAnswer)}
    {a : Artifact} (h : Talks MayAnswer (d.backup input) log (.ok a)) :
    ∀ p ∈ producers log, p.outcome.worked = true := by
  intro p hp
  obtain ⟨x, hx, hp⟩ := List.mem_flatMap.mp hp
  obtain ⟨role, script, reply, hrole, rfl, hran⟩ := mem_producersOf hp
  obtain ⟨htruth, hexec⟩ := (backup_truthful hd input).of_mem h _ hx
  have hzero := (backup_strict d input _ _ h).mp ⟨a, rfl⟩ _ hx
  exact htruth hrole _ _ hexec hzero p hran

/-! ### Every driver runs something to produce its artifact -/

def RunsProducer {α : Type} (m : Remote α) : Prop :=
  Surely MayAnswer (fun x => producersOf x ≠ []) m

theorem surely_exec {S : Exchange HostAnswer → Prop} {role : Role} {script : Script JsString}
    (h : ∀ reply, Exec MayCome script reply.ran reply.outcome →
      S ⟨.command role script, .ok reply⟩) : Surely MayAnswer S (execOrThrow role script) := by
  intro log a hrun
  obtain ⟨answer, rest, hmay, hrest, rfl⟩ := talks_ask.mp hrun
  cases answer with
  | error message =>
    obtain ⟨_, hcontra⟩ := talks_fail.mp hrest
    cases hcontra
  | ok reply => exact ⟨_, List.mem_cons_self .., h reply hmay⟩

theorem runsProducer_exec {role : Role} {script : Script JsString} (hrole : role.produces = true)
    (h : ∀ ran o, Exec MayCome script ran o → ran ≠ []) : RunsProducer (execOrThrow role script) := by
  apply surely_exec
  intro reply hexec
  rw [producersOf, if_pos hrole]
  exact h _ _ hexec

theorem ran_words {words : List JsString} {ran : List (Ran JsString)} {o : Outcome JsString}
    (h : Exec MayCome (.run words) ran o) : ran ≠ [] := by
  obtain ⟨_, rfl⟩ := exec_run.mp h
  exact List.cons_ne_nil _ _

theorem ran_pipe {words : List JsString} {right : Script JsString} {ran : List (Ran JsString)}
    {o : Outcome JsString} (h : Exec MayCome (.pipe (.run words) right) ran o) : ran ≠ [] := by
  obtain ⟨ranL, ranR, oL, hleft, _, rfl⟩ := exec_pipe.mp h
  exact List.append_ne_nil_of_left_ne_nil (ran_words hleft) _

theorem backup_runsProducer (d : Driver) (input : BackupDriverInput) :
    RunsProducer (d.backup input) := by
  have hwords {β : Type} {role : Role} {words : List JsString} {f : JsString → Remote β}
      (hrole : role.produces = true) : RunsProducer (execOrThrow role (.run words) >>= f) :=
    surely_bind (Or.inl (runsProducer_exec hrole fun _ _ h => ran_words h))
  have hpipe {β : Type} {role : Role} {words : List JsString} {right : Script JsString}
      {f : JsString → Remote β} (hrole : role.produces = true) :
      RunsProducer (execOrThrow role (.pipe (.run words) right) >>= f) :=
    surely_bind (Or.inl (runsProducer_exec hrole fun _ _ h => ran_pipe h))
  cases d <;> refine surely_bind (Or.inr fun t => ?_)
  case postgres => exact hpipe rfl
  case zfsDataset => exact surely_bind (Or.inr fun u => hwords rfl)
  all_goals exact hwords rfl

/-! ### Recorded backups -/

/-- The files that a run of `runBackup` leaves. -/
def filesAfter (files : Files) : Except BackupError (BackupDriverResult × Files) → Files
  | .ok (_, files') => files'
  | .error _ => files

/-- A recorded backup is a successful one: an entry is appended only after something was run to
produce the artifact and all of it did its work; otherwise the run throws and the files, the
manifest among them, are what they were. -/
structure RecordsSuccess (log : List (Exchange HostAnswer)) (files : Files)
    (r : Except BackupError (BackupDriverResult × Files)) : Prop where
  recorded : (∃ result, r = .ok result) →
    producers log ≠ [] ∧ ∀ p ∈ producers log, p.outcome.worked = true
  otherwise : (∃ p ∈ producers log, p.outcome.worked = false) →
    (∃ e, r = .error e) ∧ filesAfter files r = files

theorem runBackup_run {d : Driver} {log : List (Exchange HostAnswer)}
    {r : Except BackupError (BackupDriverResult × Files)}
    (h : Talks MayAnswer (runBackup site d.targetType input files) log r) :
    (∃ message, Talks MayAnswer (d.backup input) log (.error message) ∧
      r = .error (.error message)) ∨
    ∃ a, Talks MayAnswer (d.backup input) log (.ok a) ∧
      r = recordBackup site d.targetType input a files := by
  rw [runBackup, getDriver_targetType] at h
  rcases talks_bind.mp h with ⟨e, hdriver, _⟩ | ⟨result, first, second, hdriver, hrest, rfl⟩
  · obtain ⟨_, _, hcontra⟩ := talks_attempt.mp hdriver
    cases hcontra
  · obtain ⟨result', hdriver, hresult⟩ := talks_attempt.mp hdriver
    obtain rfl := Except.ok.inj hresult
    cases result with
    | error message =>
      obtain ⟨rfl, rfl⟩ := talks_fail.mp hrest
      rw [List.append_nil]
      exact Or.inl ⟨message, hdriver, rfl⟩
    | ok a =>
      obtain ⟨rfl, rfl⟩ : second = [] ∧ r = recordBackup site d.targetType input a files := by
        dsimp only at hrest
        cases hrecord : recordBackup site d.targetType input a files with
        | error e =>
          rw [hrecord] at hrest
          exact talks_fail.mp hrest
        | ok result =>
          rw [hrecord] at hrest
          exact talks_done.mp hrest
      rw [List.append_nil]
      exact Or.inr ⟨a, hdriver, rfl⟩

/-- An entry is recorded exactly when all commands exit with zero and it can be appended. -/
theorem runBackup_ok_iff {d : Driver} {log : List (Exchange HostAnswer)}
    {r : Except BackupError (BackupDriverResult × Files)}
    (h : Talks MayAnswer (runBackup site d.targetType input files) log r) :
    (∃ result, r = .ok result) ↔ (∀ x ∈ log, ExitedZero x) ∧ CanRecord site input files := by
  rcases runBackup_run h with ⟨message, hdriver, rfl⟩ | ⟨a, hdriver, rfl⟩
  · have hzero := backup_strict d input _ _ hdriver
    constructor
    · intro hok
      obtain ⟨_, hok⟩ := hok
      cases hok
    · intro hall
      obtain ⟨_, hok⟩ := hzero.mpr hall.1
      cases hok
  · have hzero := (backup_strict d input _ _ hdriver).mp ⟨a, rfl⟩
    rw [recordBackup_iff]
    exact ⟨fun hrecord => ⟨hzero, hrecord⟩, fun hall => hall.2⟩

/-- A run records only a success unless its driver is one of the three that hide a failure, a
producing program failed, yet every command exited with zero, and nothing on the engine's own
machine kept the entry from being appended. -/
theorem recorded_successful_iff (site : BackupSite) (d : Driver) (input : BackupDriverInput)
    (files : Files) (log : List (Exchange HostAnswer))
    (r : Except BackupError (BackupDriverResult × Files))
    (h : Talks MayAnswer (runBackup site d.targetType input files) log r) :
    RecordsSuccess log files r ↔
      ¬ (d.hides = true ∧ (∃ p ∈ producers log, p.outcome.worked = false) ∧
        (∀ x ∈ log, ExitedZero x) ∧ CanRecord site input files) := by
  constructor
  · rintro hsuccess ⟨_, ⟨p, hp, hfailed⟩, hzero, hcan⟩
    have hworked := (hsuccess.recorded ((runBackup_ok_iff h).mpr ⟨hzero, hcan⟩)).2 p hp
    rw [hfailed] at hworked
    cases hworked
  · intro hnot
    have hrecorded : (∃ result, r = .ok result) →
        producers log ≠ [] ∧ ∀ p ∈ producers log, p.outcome.worked = true := by
      intro hok
      obtain ⟨hzero, hcan⟩ := (runBackup_ok_iff h).mp hok
      rcases runBackup_run h with ⟨message, _, rfl⟩ | ⟨a, hdriver, _⟩
      · obtain ⟨_, hok⟩ := hok
        cases hok
      · obtain ⟨x, hx, hran⟩ := backup_runsProducer d input _ _ hdriver
        obtain ⟨p, hp⟩ := List.exists_mem_of_ne_nil _ hran
        refine ⟨List.ne_nil_of_mem (List.mem_flatMap.mpr ⟨x, hx, hp⟩), ?_⟩
        cases hd : d.hides with
        | false => exact producers_worked hd hdriver
        | true =>
          -- the driver may hide a failure, but here there is none
          intro q hq
          by_contra hfailed
          exact hnot ⟨hd, ⟨q, hq, Bool.eq_false_iff.mpr hfailed⟩, hzero, hcan⟩
    refine ⟨hrecorded, ?_⟩
    rintro ⟨p, hp, hfailed⟩
    cases r with
    | error e => exact ⟨⟨e, rfl⟩, rfl⟩
    | ok result =>
      have hworked := (hrecorded ⟨result, rfl⟩).2 p hp
      rw [hfailed] at hworked
      cases hworked

/-! ### A dump that failed -/

/-- A text of the sample, which the shell takes as one word. -/
def plainWord : ShellWord := ⟨js "app", by decide, by decide⟩

def plainInput : BackupDriverInput :=
  ⟨plainWord, js "postgres", fun _ => none, plainWord, js "/d"⟩

def plainSite : BackupSite := ⟨january, js "/", ⟨none, none, none⟩⟩

theorem plainSite_records : CanRecord plainSite plainInput (fun _ => none) :=
  ⟨⟨_, rfl⟩, ⟨_, rfl⟩, rfl, rfl, [], rfl⟩

def plainPath : JsString := plainInput.destPath (js "pg-app-5.sql.gz")

/-- A program that has exited with this status. -/
def exited (words : List JsString) (status : ℕ) : Ran JsString :=
  ⟨words, ⟨status, [], [], decide (status = 0)⟩⟩

theorem exited_mayCome (words : List JsString) (status : ℕ) :
    MayCome words (exited words status).outcome := by
  refine ⟨fun hworked => of_decide_eq_true hworked, fun _ hzero => ?_⟩
  exact decide_eq_true hzero

def succeeds (role : Role) (words : List JsString) : Exchange HostAnswer :=
  ⟨.command role (.run words), .ok ⟨[exited words 0], (exited words 0).outcome⟩⟩

/-- `pg_dump` fails and `gzip` compresses what it got, which is nothing. -/
def failedDump : Exchange HostAnswer :=
  ⟨.command (.creates plainPath)
      (.pipe (.run [js "pg_dump", js "app"]) (.into (.run [js "gzip"]) plainPath)),
    .ok ⟨[exited [js "pg_dump", js "app"] 1, exited [js "gzip"] 0], ⟨0, [], [], true⟩⟩⟩

def failedLog : List (Exchange HostAnswer) :=
  [⟨.now, (5 : ℕ)⟩, failedDump,
    succeeds .inspects [js "stat", js "-c", js "%s", plainPath],
    ⟨.command .inspects (.pipe (.run [js "sha256sum", plainPath])
        (.run [js "awk", js "'\x7bprint $1\x7d'"])),
      .ok ⟨[exited [js "sha256sum", plainPath] 0, exited [js "awk", js "'\x7bprint $1\x7d'"] 0],
        ⟨0, [], [], true⟩⟩⟩]

theorem failedLog_driver :
    Talks MayAnswer (postgresDriver plainInput) failedLog (.ok ⟨plainPath, 0, []⟩) := by
  have hrun (words : List JsString) (status : ℕ) :
      Exec MayCome (.run words) [exited words status] (exited words status).outcome :=
    .run (exited_mayCome words status)
  refine .ask trivial (.ask ?_ (.ask (hrun _ 0) (.ask ?_ (.done _))))
  · exact .pipe (hrun _ 1) (.into (hrun _ 0))
  · exact .pipe (hrun _ 0) (hrun _ 0)

theorem failedLog_run : ∃ result, Talks MayAnswer
    (runBackup plainSite Driver.postgres.targetType plainInput fun _ => none) failedLog
      (.ok result) := by
  obtain ⟨result, hresult⟩ : ∃ result, recordBackup plainSite Driver.postgres.targetType plainInput
      ⟨plainPath, 0, []⟩ (fun _ => none) = .ok result := recordBackup_iff.mpr plainSite_records
  refine ⟨result, ?_⟩
  rw [runBackup, getDriver_targetType]
  have hdriver : Talks MayAnswer (postgresDriver plainInput).attempt failedLog
      (.ok (.ok ⟨plainPath, 0, []⟩) : Except BackupError (Except JsString Artifact)) :=
    talks_attempt.mpr ⟨_, failedLog_driver, rfl⟩
  refine talks_bind.mpr (Or.inr ⟨_, failedLog, [], hdriver, ?_, (List.append_nil _).symm⟩)
  dsimp only
  rw [hresult]
  exact .done result

theorem failedLog_failed : ∃ p ∈ producers failedLog, p.outcome.worked = false :=
  ⟨exited [js "pg_dump", js "app"] 1, List.mem_cons_self .., rfl⟩

/-- The dump of a database fails behind the pipe, and its backup is recorded. -/
theorem recorded_successful_fails : ¬ ∀ (site : BackupSite) (d : Driver) (input : BackupDriverInput)
    (files : Files) (log : List (Exchange HostAnswer))
    (r : Except BackupError (BackupDriverResult × Files)),
    Talks MayAnswer (runBackup site d.targetType input files) log r → RecordsSuccess log files r := by
  intro h
  obtain ⟨result, hrun⟩ := failedLog_run
  obtain ⟨⟨e, hcontra⟩, _⟩ := (h _ _ _ _ _ _ hrun).otherwise failedLog_failed
  cases hcontra

/-- That run, as the theorem has it: it is one of those that record a failure. -/
theorem recorded_successful_failedLog : ∃ result,
    Talks MayAnswer (runBackup plainSite Driver.postgres.targetType plainInput fun _ => none) failedLog
      (.ok result) ∧
    (RecordsSuccess failedLog (fun _ => none) (.ok result) ↔
      ¬ (Driver.postgres.hides = true ∧ (∃ p ∈ producers failedLog, p.outcome.worked = false) ∧
        (∀ x ∈ failedLog, ExitedZero x) ∧ CanRecord plainSite plainInput fun _ => none)) := by
  obtain ⟨result, hrun⟩ := failedLog_run
  exact ⟨result, hrun, recorded_successful_iff plainSite .postgres plainInput _ _ _ hrun⟩

end Homelab
