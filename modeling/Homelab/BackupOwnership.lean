import Homelab.BackupDepot

/-! Each backup keeps the artifact that its entry names, as long as no other one writes there. -/
namespace Homelab
open Js Path Shell Dialogue

variable {Run : Type} {cwd : JsString} {depot : Depot Run} {W W' : Set Spot} {calls : Run → BackupCall}
  {s t : Backups Run} {location : JsString}

/-! ### What a driver needs -/

/-- What a call holds once it has this answer -/
def Leaves (cwd : JsString) : ∀ q, HostAnswer q → Set Spot → Prop
  | .now, _, _ => True
  | .command _ _, .error _, _ => True
  | .command role _, .ok reply, W => reply.outcome.status = 0 →
    match role with
    | .creates artifact => spotOf cwd artifact ∈ W
    | .createsIn dir fileName => spotOf cwd (join [dir, fileName]) ∈ W
    | .lists _ _ => trim reply.outcome.stdout ≠ [] ∧ spotOf cwd (trim reply.outcome.stdout) ∈ W
    | _ => True

/-- The location of the artifact is held. -/
def HoldsArtifact (cwd : JsString) (W : Set Spot) (artifact : Artifact) : Prop :=
  spotOf cwd artifact.artifactPath ∈ W

theorem holdsArtifact_mono (artifact : Artifact) (V V' : Set Spot) (h : V ⊆ V')
    (hV : HoldsArtifact cwd V artifact) : HoldsArtifact cwd V' artifact := h hV

theorem secures_now {α : Type} {P : Set Spot → α → Prop} {f : ℕ → Remote α}
    (h : ∀ t V, W ⊆ V → Secures (Leaves cwd) P V (f t)) : Secures (Leaves cwd) P W (dateNow >>= f) := by
  intro t V hV _
  exact h t V hV

/-- A command that fails ends the call; one that does not leaves what its role says. -/
theorem secures_exec {α : Type} {P : Set Spot → α → Prop} {role : Role} {script : Script JsString}
    {f : JsString → Remote α} (h : ∀ reply V, W ⊆ V → reply.outcome.status = 0 →
      Leaves cwd (.command role script) (.ok reply) V → Secures (Leaves cwd) P V (f reply.outcome.stdout)) :
    Secures (Leaves cwd) P W (execOrThrow role script >>= f) := by
  apply secures_bind
  intro answer V hV hleaves
  cases answer with
  | error message => trivial
  | ok reply =>
    dsimp only
    by_cases hstatus : reply.outcome.status = 0
    · rw [if_neg (not_not.mpr hstatus)]
      exact h reply V hV hstatus hleaves
    · rw [if_pos hstatus]
      trivial

theorem secures_measured (h : spotOf cwd location ∈ W) :
    Secures (Leaves cwd) (HoldsArtifact cwd) W (measured location) := by
  apply secures_exec
  intro size V hV _ _
  apply secures_exec
  intro checksum V' hV' _ _
  exact hV' (hV h)

/-- A driver that creates its artifact in one command -/
theorem secures_created {role : Role} {script : Script JsString}
    (hrole : ∀ reply V, reply.outcome.status = 0 → Leaves cwd (.command role script) (.ok reply) V →
      spotOf cwd location ∈ V) :
    Secures (Leaves cwd) (HoldsArtifact cwd) W (execOrThrow role script >>= fun _ => measured location) := by
  apply secures_exec
  intro reply V _ hstatus hleaves
  exact secures_measured (hrole reply V hstatus hleaves)

/-- A driver that looks for what the program has dumped -/
theorem secures_dumped {role : Role} {script script' : Script JsString} {dir suffix destPath : JsString} :
    Secures (Leaves cwd) (HoldsArtifact cwd) W (execOrThrow role script >>= fun _ =>
      execOrThrow (.lists dir suffix) script' >>= fun listOut => measured (listedOr listOut destPath)) := by
  apply secures_exec
  intro reply V _ _ _
  apply secures_exec
  intro listed V' _ hstatus hleaves
  obtain ⟨hne, hspot⟩ := hleaves hstatus
  apply secures_measured
  rwa [listedOr, if_neg hne]

theorem backup_secures (d : Driver) (input : BackupDriverInput) :
    Secures (Leaves cwd) (HoldsArtifact cwd) W (d.backup input) := by
  have hcreates {location : JsString} {script : Script JsString} {V : Set Spot} :
      Secures (Leaves cwd) (HoldsArtifact cwd) V
        (execOrThrow (.creates location) script >>= fun _ => measured location) :=
    secures_created fun _ _ hstatus hleaves => hleaves hstatus
  cases d with
  | redis =>
    refine secures_now fun t V _ => secures_exec fun _ V' _ _ _ => secures_exec fun _ V'' _ _ _ => ?_
    exact hcreates
  | zfsDataset =>
    refine secures_now fun t V _ => secures_now fun u V' _ => secures_exec fun _ V'' _ _ _ => ?_
    exact hcreates
  | dockerVolume => exact secures_now fun t V _ => secures_created fun _ _ hstatus hleaves => hleaves hstatus
  | proxmoxVm => exact secures_now fun t V _ => secures_dumped
  | neo4j => exact secures_now fun t V _ => secures_dumped
  | opensearch => exact secures_now fun t V _ => secures_exec fun _ V' _ hstatus hleaves => hleaves hstatus
  | _ => exact secures_now fun t V _ => hcreates

/-! ### What a turn leaves -/

/-- What a call has written, and nobody after it -/
def Depot.heldBy (depot : Depot Run) (i : Run) : Set Spot := { spot | depot.owner spot = some i }

theorem Depot.owner_written (depot : Depot Run) (cwd : JsString) (i : Run) (location : JsString) :
    Depot.owner ((backupHost cwd).act i (some location) depot) (spotOf cwd location) = some i := by
  rw [Depot.owner]
  change (List.find? _ ((spotOf cwd location, some i) :: depot)).bind _ = _
  rw [List.find?_cons_of_pos (by exact decide_eq_true rfl)]
  rfl

theorem Depot.owner_other {spot : Spot} (depot : Depot Run) (i : Run) (h : spotOf cwd location ≠ spot) :
    Depot.owner ((backupHost cwd).act i (some location) depot) spot = depot.owner spot := by
  rw [Depot.owner]
  change (List.find? _ ((spotOf cwd location, some i) :: depot)).bind _ = _
  rw [List.find?_cons_of_neg (by simpa using h)]
  rfl

theorem heldBy_self (depot : Depot Run) (i : Run) (written : Option JsString) :
    depot.heldBy i ⊆ Depot.heldBy ((backupHost cwd).act i written depot) i := by
  intro spot hspot
  cases written with
  | none => exact hspot
  | some location =>
    by_cases hsame : spotOf cwd location = spot
    · subst hsame
      exact depot.owner_written cwd i location
    · exact (depot.owner_other i hsame).trans hspot

/-- What is created stands where it was to be created. -/
theorem owner_created {role : Role} {answer : Except JsString Reply} {written : Option JsString} {i : Run}
    (hwrite : MayWrite role answer written) (hsome : written ≠ none)
    (hrole : role = .creates location ∨ ∃ dir fileName, role = .createsIn dir fileName ∧
      location = join [dir, fileName]) :
    Depot.owner ((backupHost cwd).act i written depot) (spotOf cwd location) = some i := by
  have hlocation : written = some location := by
    rcases hrole with rfl | ⟨dir, fileName, rfl, rfl⟩
    · exact hwrite.resolve_right fun h => hsome h.1
    · rw [MayWrite] at hwrite
      split_ifs at hwrite
      · exact hwrite.resolve_right fun h => hsome h.1
      · exact absurd hwrite hsome
  rw [hlocation]
  exact depot.owner_written cwd i location

theorem leaves_turn {i : Run} {q : Ask} {answer : HostAnswer q} {written : Option JsString}
    (hmay : (backupHost cwd).may s.shared i q answer written) (hapart : Apart cwd s i q answer written) :
    Leaves cwd q answer (Depot.heldBy ((backupHost cwd).act i written s.shared) i) := by
  cases q with
  | now => trivial
  | command role script =>
    cases answer with
    | error message => trivial
    | ok reply =>
      intro hstatus
      obtain ⟨-, hwrite, hlisting⟩ := hmay
      have hdone := hapart.2 hstatus
      cases role with
      | creates artifact => exact owner_created hwrite hdone (.inl rfl)
      | createsIn dir fileName => exact owner_created hwrite hdone (.inr ⟨dir, fileName, rfl, rfl⟩)
      | lists dir suffix =>
        obtain ⟨hne, howner⟩ := hdone
        rw [hlisting reply dir suffix rfl rfl hstatus]
        refine ⟨hne, ?_⟩
        exact heldBy_self s.shared i written howner
      | _ => trivial

/-- What a call has written is taken only from a call that has failed. -/
theorem fair_apart [DecidableEq Run] (cwd : JsString) :
    Fair (backupHost cwd) (fun depot i => Depot.heldBy depot i) (Leaves cwd)
      (Apart cwd : Backups Run → Run → ∀ q, HostAnswer q → Option JsString → Prop) where
  keeps s i _ _ written _ _ := heldBy_self s.shared i written
  gives _ _ _ _ _ hmay hapart := leaves_turn hmay hapart
  leaves s i q answer written hmay hapart j hji := by
    cases written with
    | none => exact .inl fun _ h => h
    | some location =>
      by_cases hfailed : ∃ message, s.tasks j = .fail message
      · exact .inr hfailed
      · refine .inl fun spot hspot => ?_
        have hother : spotOf cwd location ≠ spot := by
          rintro rfl
          exact hfailed (hapart.1 location j rfl hspot hji)
        exact (s.shared.owner_other i hother).trans hspot

/-! ### Runs -/

/-- Writing where the artifact of a call that has returned lies leaves its entry without it. -/
theorem not_owned_of_overwritten {i j : Run} {artifact : Artifact} (hne : j ≠ i)
    (htask : s.tasks j = .done artifact)
    (hshared : s.shared = (backupHost cwd).act i (some artifact.artifactPath) depot) :
    ¬ OwnsArtifacts cwd calls s := by
  intro howns
  have hown := howns.own j _ ⟨january, artifact, htask, rfl⟩
  have howner := depot.owner_written cwd i artifact.artifactPath
  rw [← hshared] at howner
  exact hne (Option.some.inj (hown.symm.trans howner))

/-! ### Two dumps of one database -/

def dumpInput : BackupDriverInput :=
  ⟨⟨js "graph", by decide, by decide⟩, js "neo4j", fun _ => none, ⟨js "/b", by decide, by decide⟩, js "/d"⟩

/-- The nightly backup of the database and the one of the night after -/
def nightlyDumps : Bool → BackupCall := fun _ => ⟨.neo4j, dumpInput⟩

def dumpPath : JsString := js "/b/neo4j.dump"

def dumpCommand : Script JsString :=
  .run [js "neo4j-admin", js "database", js "dump", js "neo4j", js "--to-path=/b",
    js "--overwrite-destination"]

section Nights

variable {C : Backups Bool → Bool → ∀ q, HostAnswer q → Option JsString → Prop} {role : Role}
  {next : Except JsString Reply → Remote Artifact} {i : Bool}

/-- A turn in which a command exits with zero -/
theorem command_turn {s t : Backups Bool} {script : Script JsString} (h : Interleaves (backupHost []) C s t)
    (htask : t.tasks i = .ask (.command role script) next) (reply : Reply) (written : Option JsString)
    (hexec : Exec MayCome script reply.ran reply.outcome) (hwrite : MayWrite role (.ok reply) written)
    (hlists : ∀ dir suffix, role = .lists dir suffix → reply.outcome.stdout = t.shared.listing [] dir suffix)
    (hc : C t i (.command role script) (.ok reply) written) :
    Interleaves (backupHost []) C s
      ⟨(backupHost []).act i written t.shared, Function.update t.tasks i (next (.ok reply))⟩ := by
  refine h.turn htask (.ok reply) written (And.intro hexec (And.intro hwrite ?_)) hc
  intro reply' dir suffix hreply hrole _
  cases hreply
  exact hlists dir suffix hrole

end Nights

/-- The outcome of a program that works and prints a text -/
def printed (text : JsString) : Shell.Outcome JsString := ⟨0, text, [], true⟩

theorem printed_mayCome (words : List JsString) (text : JsString) : MayCome words (printed text) :=
  ⟨fun _ => rfl, fun _ _ => rfl⟩

/-- A dump that has been written and found, and is measured -/
theorem first_night : ∃ s : Backups Bool,
    Interleaves (backupHost []) (Apart []) (Backups.start nightlyDumps []) s ∧
      s.tasks false = .done ⟨dumpPath, 0, []⟩ ∧ s.tasks true = neo4jDriver dumpInput ∧
      s.shared = [(spotOf [] dumpPath, some false)] := by
  have hquiet (words : List JsString) : Exec MayCome (.run words) [⟨words, printed []⟩] (printed []) :=
    .run (printed_mayCome words [])
  have hstart : Interleaves (backupHost []) (Apart []) (Backups.start nightlyDumps []) _ := .refl
  have hclock := hstart.turn (i := false) rfl (1 : ℕ) none rfl ⟨fun _ _ h => (by cases h), trivial⟩
  have hdump := command_turn (i := false) hclock rfl ⟨_, printed []⟩ (some dumpPath) (hquiet _)
    (.inl ⟨js "neo4j.dump", .inr rfl, rfl⟩) (fun _ _ h => (by cases h))
      ⟨fun _ _ _ h => (by cases h), fun _ => trivial⟩
  have hlist := command_turn (i := false) hdump rfl ⟨_, printed (dumpPath ++ js "\n")⟩ none
    (.pipe (.stderr (hquiet _)) (.run (printed_mayCome _ _))) rfl
    (fun _ _ h => (by cases h; rfl)) ⟨fun _ _ h => (by cases h), fun _ => ⟨by decide, rfl⟩⟩
  have hsize := command_turn (i := false) hlist rfl ⟨_, printed []⟩ none (hquiet _) rfl
    (fun _ _ h => (by cases h)) ⟨fun _ _ h => (by cases h), fun _ => trivial⟩
  have hsum := command_turn (i := false) hsize rfl ⟨_, printed []⟩ none
    (.pipe (hquiet _) (.run (printed_mayCome _ _))) rfl (fun _ _ h => (by cases h))
    ⟨fun _ _ h => (by cases h), fun _ => trivial⟩
  exact ⟨_, hsum, rfl, rfl, rfl⟩

end Homelab
