import Homelab.StatePaths

/-! One data directory for all that the command line touches, and the manifest that a
backup is recorded in against the one that is verified. -/
namespace Homelab
open Js Path

/-- Every invocation with these options and surroundings keeps to one directory, the same
for all commands. -/
def OneDirectory (flag : Option JsString) (s : Surroundings) : Prop :=
  ∃ dir, ∀ i : Invocation, i.argv.dataDir = flag → i.surroundings = s → i.LiesIn dir

/-- Every invocation of the command keeps to one directory. -/
def KeepsToOne (flag : Option JsString) (s : Surroundings) (c : Command) : Prop :=
  ∀ i : Invocation, i.argv = ⟨c, flag⟩ → i.surroundings = s → ∃ dir, i.LiesIn dir

/-- What `backup run` records is in the manifest that `verifyBackup` then reads. -/
def BackupSeen (flag : Option JsString) (s : Surroundings) : Prop :=
  ∀ (rt : BackupRuntime) (faults : ManifestFaults) (record : BackupRecord) (entry : JsValue)
    (files files' : Files), record.Signed rt entry →
    appendManifestEntry rt faults
      (DataFile.location ⟨.backupRun, flag⟩ s ⟨.cli .wiring, .backupManifest⟩) entry files =
        .ok files' →
    ∃ entries, readManifest rt (readFileAt files' none
      (DataFile.location ⟨.backupVerify, flag⟩ s ⟨.safety, .backupManifest⟩)) = .ok entries ∧
        entry ∈ entries

/-- All resolvers choose the directory of the bootstrap. -/
structure SameDirectory (flag : Option JsString) (s : Surroundings) : Prop where
  flag : ∀ dir, flag = some dir → locate s.cwd dir = homeDirectory s
  cli : cliDirectory s = homeDirectory s
  safety : safetyDirectory s = homeDirectory s

variable {flag : Option JsString} {s : Surroundings}

theorem SameDirectory.directory (h : SameDirectory flag s) (r : Resolver) :
    r.directory flag s = homeDirectory s := by
  cases r with
  | safety => exact h.safety
  | bootstrap => rfl
  | cli moment =>
    cases moment with
    | wiring => exact h.cli
    | action =>
      cases hflag : flag with
      | some dir => exact h.flag dir hflag
      | none => exact h.cli

/-- The run of a command that assembles the runtime and opens all that the command can. -/
def fullRun (flag : Option JsString) (s : Surroundings) (c : Command) : Invocation :=
  ⟨⟨c, flag⟩, s, true, fun _ => true⟩

theorem mem_fullRun {c : Command} {f : DataFile} :
    f ∈ (fullRun flag s c).touched ↔ f ∈ bootstrapFiles ∨ f ∈ c.files := by
  rw [Invocation.touched, List.mem_append]
  change f ∈ bootstrapFiles ∨ f ∈ c.files.filter (fun _ => true) ↔ _
  rw [List.filter_true]

/-- Where the assembled runtime keeps its keys is where all the rest must be. -/
theorem fullRun_home {c : Command} {dir : List JsString} (h : (fullRun flag s c).LiesIn dir) :
    dir = homeDirectory s :=
  (Invocation.liesIn_iff.mp h ⟨.bootstrap, .connectionKeys⟩
    (mem_fullRun.mpr (Or.inl (List.mem_cons_self ..)))).symm

theorem keepsToOne_iff {c : Command} :
    KeepsToOne flag s c ↔ ∀ f ∈ c.files, f.resolver.directory flag s = homeDirectory s := by
  constructor
  · intro h f hf
    obtain ⟨dir, hdir⟩ := h (fullRun flag s c) rfl rfl
    have hhome := fullRun_home hdir
    exact (Invocation.liesIn_iff.mp hdir f (mem_fullRun.mpr (Or.inr hf))).trans hhome
  · intro h i hargv hs
    refine ⟨homeDirectory s, Invocation.liesIn_iff.mpr fun f hf => ?_⟩
    rw [hargv, hs]
    rcases List.mem_append.mp hf with hf | hf
    · split_ifs at hf
      · simp only [bootstrapFiles, List.mem_cons, List.not_mem_nil, or_false] at hf
        rcases hf with rfl | rfl | rfl <;> rfl
      · exact absurd hf List.not_mem_nil
    · rw [hargv] at hf
      exact h f (List.mem_filter.mp hf).1

theorem oneDirectory_iff : OneDirectory flag s ↔ SameDirectory flag s := by
  constructor
  · intro h
    obtain ⟨dir, hdir⟩ := h
    have hhome : dir = homeDirectory s := fullRun_home (hdir (fullRun flag s .discover) rfl rfl)
    have hfile (c : Command) (f : DataFile) (hf : f ∈ c.files) :
        f.resolver.directory flag s = homeDirectory s :=
      (Invocation.liesIn_iff.mp (hdir (fullRun flag s c) rfl rfl) f
        (mem_fullRun.mpr (Or.inr hf))).trans hhome
    refine ⟨?_, ?_, ?_⟩
    · intro dir hflag
      have hlate := hfile .inventoryList ⟨.cli .action, .inventory⟩ (List.mem_singleton_self _)
      rwa [hflag] at hlate
    · exact hfile .backupList ⟨.cli .wiring, .backupManifest⟩ (List.mem_singleton_self _)
    · exact hfile .backupVerify ⟨.safety, .backupManifest⟩ (List.mem_singleton_self _)
  · intro h
    refine ⟨homeDirectory s, fun i hflag hs => Invocation.liesIn_iff.mpr fun f _ => ?_⟩
    rw [hflag, hs]
    exact h.directory f.resolver

/-! ### The manifest that is verified -/

/-- A record that can be signed wherever the secret is long enough. -/
def plainRecord : BackupRecord :=
  ⟨js "postgres", js "a", js "postgres", js "2026-01-01T00:00:00.000Z", js "/b/a.gz", 10, []⟩

theorem plainRecord_signed : ∃ entry, plainRecord.Signed january entry :=
  BackupRecord.signed_iff.mpr ⟨⟨_, rfl⟩, _, rfl⟩

theorem backupSeen_iff : BackupSeen flag s ↔ cliDirectory s = safetyDirectory s := by
  rw [BackupSeen]
  simp only [DataFile.location_eq]
  change (∀ (rt : BackupRuntime) (faults : ManifestFaults) (record : BackupRecord) (entry : JsValue)
    (files files' : Files), record.Signed rt entry →
    appendManifestEntry rt faults (cliDirectory s ++ [StateName.text .backupManifest]) entry files =
      .ok files' → ∃ entries, readManifest rt (readFileAt files' none
        (safetyDirectory s ++ [StateName.text .backupManifest])) = .ok entries ∧ entry ∈ entries) ↔ _
  constructor
  · intro h
    by_contra hne
    obtain ⟨entry, hsigned⟩ := plainRecord_signed
    -- into an empty file system the append goes through, and the other manifest stays absent
    have happend : appendManifestEntry january ⟨none, none, none⟩
        (cliDirectory s ++ [StateName.text .backupManifest]) entry (fun _ => none) = .ok _ :=
      appendManifestEntry_iff.mpr ⟨rfl, rfl, [], rfl, rfl⟩
    obtain ⟨entries, hread, hmem⟩ := h january ⟨none, none, none⟩ plainRecord entry (fun _ => none) _
      hsigned happend
    have habsent : readFileAt (Function.update (fun _ => none)
        (cliDirectory s ++ [StateName.text .backupManifest]) (some (manifestText ([] ++ [entry])))) none
        (safetyDirectory s ++ [StateName.text .backupManifest]) = .error noEntry := by
      rw [readFileAt, Function.update_of_ne]
      intro heq
      exact hne (List.append_left_injective _ heq).symm
    rw [habsent] at hread
    cases hread
    exact absurd hmem List.not_mem_nil
  · intro h rt faults record entry files files' hsigned happend
    rw [h] at happend
    obtain ⟨existing, _, hread⟩ := readManifest_append hsigned.kept happend
    exact ⟨_, hread, List.mem_append_right _ (List.mem_singleton_self entry)⟩

/-- All commands keep to one and the same directory exactly when every resolver chooses that
of the bootstrap; a single command, when those that it uses do; and a recorded backup is
seen exactly when the command line and the safety modules choose the same. -/
theorem one_data_directory_iff (flag : Option JsString) (s : Surroundings) :
    (OneDirectory flag s ∧ BackupSeen flag s ↔ SameDirectory flag s) ∧
    (∀ c, KeepsToOne flag s c ↔
      ∀ f ∈ c.files, f.resolver.directory flag s = homeDirectory s) ∧
    (BackupSeen flag s ↔ cliDirectory s = safetyDirectory s) := by
  refine ⟨?_, fun c => keepsToOne_iff, backupSeen_iff⟩
  rw [oneDirectory_iff, backupSeen_iff]
  exact ⟨fun h => h.1, fun h => ⟨h, h.cli.trans h.safety.symm⟩⟩

/-! ### A user without any of the variables -/

def plainUser : Surroundings where
  env _ := none
  homedir := js "/home/u"
  cwd := js "/srv"
  cwd_absolute := by decide

theorem one_data_directory_fails : ¬ ∀ (flag : Option JsString) (s : Surroundings),
    OneDirectory flag s ∧ BackupSeen flag s := by
  intro h
  have hsame : cliDirectory plainUser = safetyDirectory plainUser :=
    backupSeen_iff.mp (h none plainUser).2
  exact absurd hsame (by decide)

end Homelab
