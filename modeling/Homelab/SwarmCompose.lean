import Homelab.DeployGate
import Homelab.PathSteps

/-! The compose file that a Swarm deploy hands to `docker stack deploy`, and the directory that it is read
from. -/
namespace Homelab
open Js Path Dialogue

/-! ### Where a path leads -/

/-- The path, read in the directory, leads to something in it, at any depth. -/
def LeadsInside (root path : JsString) : Prop := ∃ names, names ≠ [] ∧ locate root path = locate root dot ++ names

theorem locate_dot (root : JsString) : locate root dot = (reduce false [] (segments root)).reverse := by
  have hdot : segments dot = [dot] := by decide
  have hrel : isAbsolute dot = false := rfl
  rw [locate_eq, hdot, reduce_skip (.inr rfl), start, hrel]
  rfl

theorem locate_relative (root : JsString) {path : JsString} (h : isAbsolute path = false) :
    locate root path = (steps (segments path)).after (locate root dot) := by
  rw [locate_eq, start, h, if_neg Bool.false_ne_true, reduce_steps (reduce_down _), Steps.reverse_kept,
    locate_dot]

/-- The guard stops every relative path that leads up. -/
theorem leavesRepo_of_ups {path : JsString} (hrel : isAbsolute path = false)
    (hups : (steps (segments path)).ups ≠ 0) : leavesRepo path = true := by
  obtain ⟨n, hn⟩ := Nat.exists_eq_succ_of_ne_zero hups
  have hne : path ≠ [] := by
    rintro rfl
    exact hups rfl
  -- each level up is one double dot, and they all stand before the names
  have hkept : (reduce true [] (segments path)).reverse =
      dotdot :: (List.replicate n dotdot ++ (steps (segments path)).names.reverse) := by
    rw [reduce_above, hn, List.reverse_append, List.reverse_replicate]
    rfl
  -- what is normalised starts with a double dot, and with `../` unless nothing else is left of it
  have hstarts : ∃ rest, Path.normalize path = dotdot ++ rest ∧ (rest = [] ∨ rest.head? = some slash) := by
    have htrailing : ∃ trailing : JsString, Path.normalize path = normalizeString true path ++ trailing ∧
        (trailing = [] ∨ trailing = [slash]) := by
      -- one double dot is left at least, so that nothing is taken for `.`
      have hsome : normalizeString true path ≠ [] := by
        rw [normalizeString, hkept]
        cases List.replicate n dotdot ++ (steps (segments path)).names.reverse with
        | nil => decide
        | cons second rest =>
          rw [List.intercalate_cons_cons]
          exact List.append_ne_nil_of_left_ne_nil (List.append_ne_nil_of_left_ne_nil (by decide) _) _
      refine ⟨if path.getLast? = some slash then [slash] else [], ?_, ?_⟩
      · rw [Path.normalize, if_neg hne, hrel]
        simp only [Bool.not_false, Bool.false_eq_true, if_false, if_neg hsome]
      · split_ifs
        · exact .inr rfl
        · exact .inl rfl
    obtain ⟨trailing, hnormal, htrailing⟩ := htrailing
    rw [hnormal, normalizeString, hkept]
    cases List.replicate n dotdot ++ (steps (segments path)).names.reverse with
    | nil =>
      refine ⟨trailing, rfl, ?_⟩
      rcases htrailing with rfl | rfl
      · exact .inl rfl
      · exact .inr rfl
    | cons second rest =>
      refine ⟨slash :: ([slash].intercalate (second :: rest) ++ trailing), ?_, .inr rfl⟩
      rw [List.intercalate_cons_cons]
      simp only [List.append_assoc, List.cons_append, List.nil_append]
  obtain ⟨rest, hnormal, hrest⟩ := hstarts
  rw [leavesRepo, hnormal]
  rcases hrest with rfl | hslash
  · rfl
  · cases rest with
    | nil => cases hslash
    | cons c rest =>
      obtain rfl : c = slash := Option.some.inj hslash
      rfl

/-- A relative path that the guard lets through is inside unless it spells the directory itself. -/
theorem inside_relative_iff (root : JsString) {path : JsString} (hrel : isAbsolute path = false)
    (hguard : leavesRepo path = false) :
    LeadsInside root path ↔ (steps (segments path)).names ≠ [] := by
  have hups : (steps (segments path)).ups = 0 := by
    by_contra hups
    rw [leavesRepo_of_ups hrel hups] at hguard
    cases hguard
  rw [LeadsInside, locate_relative root hrel, Steps.after, hups, List.rdrop_zero]
  constructor
  · rintro ⟨names, hne, hnames⟩ hnone
    rw [hnone] at hnames
    exact hne (List.append_cancel_left hnames).symm
  · intro hne
    exact ⟨_, fun hnone => hne (List.reverse_eq_nil_iff.mp hnone), rfl⟩

/-! ### What is deployed -/

/-- The words of `docker stack deploy` for a compose file and a stack -/
def stackDeploy (path stack : JsString) : List JsString :=
  [js "docker", js "stack", js "deploy", js "--compose-file", path, js "--with-registry-auth", stack]

/-- In a run with this log the compose file is handed to Docker. -/
def ComposeDeployed (log : List (Exchange DeployAnswer)) (path : JsString) : Prop :=
  ∃ x ∈ log, ∃ stack, x.ask = .exec (stackDeploy path stack)

/-- In every run of a deploy with these parameters, whatever compose file is handed to Docker is in the
directory. -/
def ComposeContained (host : DeployHost) (root : JsString) (rawParams : Fields) : Prop :=
  ∀ config turns artifact env log r,
    Talks anyAnswer (swarmDeploy host config turns artifact env rawParams) log r →
      ∀ path, ComposeDeployed log path → LeadsInside root path

variable {host : DeployHost} {config : StatefulDeployConfig} {turns : ℕ} {artifact : BuildArtifact}
  {env : JsString} {rawParams params : Fields}

/-- The question hands no other compose file to Docker. -/
def DeploysOnly (path : JsString) (q : DeployAsk) : Prop :=
  ∀ path' stack, q = .exec (stackDeploy path' stack) → path' = path

theorem deploysOnly_service (path : JsString) (words : List JsString) :
    DeploysOnly path (.exec (js "docker" :: js "service" :: words)) := by
  intro path' stack h
  have hwords := DeployAsk.exec.inj h
  have hsecond := (List.cons.inj (List.cons.inj hwords).2).1
  exact absurd hsecond (by decide)

theorem asks_swarmRelease_only {stateful : Bool} {namedVolumes platform : JsValue} :
    (swarmRelease host turns artifact env params stateful namedVolumes platform).Asks
      (DeploysOnly (paramText params (js "compose_file_path"))) := by
  have hother {q : DeployAsk} (h : ∀ words, q ≠ .exec words) :
      DeploysOnly (paramText params (js "compose_file_path")) q :=
    fun path' stack heq => absurd heq (h _)
  -- the connection, the inspection of the service and the deploy come first, whatever they answer
  refine asks_bind (asks_call (hother fun _ h => by cases h)) fun connected => ?_
  refine asks_bind (asks_call (deploysOnly_service _ _)) fun inspected => ?_
  refine asks_bind (asks_call ?_) fun deployed => ?_
  · intro path' stack h
    have hwords := DeployAsk.exec.inj h
    simp only [stackDeploy, List.cons.injEq, true_and] at hwords
    exact hwords.1.symm
  -- a deploy that fails may be rolled back, which needs no compose file
  split_ifs with hexit
  · rw [swarmDeployFailed]
    split_ifs with hprevious
    · trivial
    · exact asks_bind (asks_swarmAttemptRollback (hother fun _ h => by cases h) (deploysOnly_service _)
        fun _ => hother fun _ h => by cases h) fun _ => trivial
  · exact asks_bind (asks_currentIso (hother fun _ h => by cases h)) fun _ =>
      asks_bind (asks_put (hother fun _ h => by cases h)) fun _ => asks_orThrow _

/-- A deploy that the guard lets through goes on to the backup gate. -/
theorem swarmDeploy_valid (hvalid : validateParameters rawParams swarmSchema = .ok params)
    (hguard : leavesRepo (paramText params (js "compose_file_path")) = false) :
    ∃ stateful namedVolumes platform target, swarmDeploy host config turns artifact env rawParams =
      (requireBackupOf config stateful platform target).bind fun _ =>
        swarmRelease host turns artifact env params stateful namedVolumes platform := by
  refine ⟨isStatefulTarget [(js "role", getOwn (js "role") params),
      (js "named_volumes", (getOwn (js "named_volumes") params).orElse (.arr []))],
    (getOwn (js "named_volumes") params).orElse (.arr []),
    (getOwn (js "backup_platform") params).orElse (.str (js "docker")),
    paramText params (js "stack_name") ++ js "_" ++ paramText params (js "service_name"), ?_⟩
  rw [swarmDeploy, hvalid]
  change (if _ then _ else _) = _
  rw [hguard, if_neg Bool.false_ne_true]
  rfl

theorem deployed_path (hvalid : validateParameters rawParams swarmSchema = .ok params)
    (hguard : leavesRepo (paramText params (js "compose_file_path")) = false)
    {log : List (Exchange DeployAnswer)} {r : Except DeployStop DeploymentRecord}
    (h : Talks anyAnswer (swarmDeploy host config turns artifact env rawParams) log r) {path : JsString}
    (hpath : ComposeDeployed log path) : path = paramText params (js "compose_file_path") := by
  obtain ⟨stateful, namedVolumes, platform, target, hdeploy⟩ := @swarmDeploy_valid host config turns
    artifact env rawParams params hvalid hguard
  have hasks : (swarmDeploy host config turns artifact env rawParams).Asks
      (DeploysOnly (paramText params (js "compose_file_path"))) := by
    rw [hdeploy]
    refine asks_bind ?_ fun _ => asks_swarmRelease_only
    rw [requireBackupOf]
    split_ifs
    · exact asks_bind (asks_call fun path' stack heq => by cases heq) fun _ => trivial
    · trivial
  obtain ⟨x, hx, stack, hask⟩ := hpath
  exact (hasks.of_mem h x hx).1 path stack hask

theorem anyAnswer_exists (q : DeployAsk) : ∃ a, anyAnswer q a := by
  have hrejected : DeployFailure := .error (js "rejected")
  cases q with
  | now => exact ⟨(0 : ℕ), trivial⟩
  | sleep ms => exact ⟨(), trivial⟩
  | generateId => exact ⟨js "id", trivial⟩
  | _ => exact ⟨.error hrejected, trivial⟩

/-- A deploy that the guard lets through can hand its compose file to Docker. -/
theorem reaches_stackDeploy (hvalid : validateParameters rawParams swarmSchema = .ok params)
    (hguard : leavesRepo (paramText params (js "compose_file_path")) = false) :
    Reaches anyAnswer (.exec (stackDeploy (paramText params (js "compose_file_path"))
        (paramText params (js "stack_name"))))
      (swarmDeploy host ⟨false, none⟩ turns artifact env rawParams) := by
  obtain ⟨stateful, namedVolumes, platform, target, hdeploy⟩ := @swarmDeploy_valid host ⟨false, none⟩
    turns artifact env rawParams params hvalid hguard
  -- a deploy that asks for no backup passes the gate without a question
  have hgate : Talks anyAnswer (requireBackupOf ⟨false, none⟩ stateful platform target) [] (.ok ()) := by
    rw [requireBackupOf, Bool.and_false, if_neg Bool.false_ne_true]
    exact .done ()
  rw [hdeploy]
  refine hgate.reaches ?_
  have hconnected : anyAnswer (.getConnection (getOwn (js "manager_id") params)) (Except.ok ()) := trivial
  have hinspected : anyAnswer (.exec [js "docker", js "service", js "inspect",
      paramText params (js "stack_name") ++ js "_" ++ paramText params (js "service_name")])
      (Except.ok ⟨1, [], []⟩) := trivial
  exact .ask hconnected (.ask hinspected (reaches_first anyAnswer_exists _ _))

/-! ### When the compose file is in the directory -/

/-- A compose file that the guard lets through is in the directory exactly when its path is relative and
does not spell the directory itself, or is absolute and leads there. -/
theorem compose_contained_iff (host : DeployHost) (root : JsString) (rawParams params : Fields)
    (hvalid : validateParameters rawParams swarmSchema = .ok params)
    (hguard : leavesRepo (paramText params (js "compose_file_path")) = false) :
    ComposeContained host root rawParams ↔
      (isAbsolute (paramText params (js "compose_file_path")) = false ∧
        (steps (segments (paramText params (js "compose_file_path")))).names ≠ []) ∨
      (isAbsolute (paramText params (js "compose_file_path")) = true ∧
        ∃ names, names ≠ [] ∧
          fromRoot (paramText params (js "compose_file_path")) = locate root dot ++ names) := by
  have hcontained : ComposeContained host root rawParams ↔
      LeadsInside root (paramText params (js "compose_file_path")) := by
    constructor
    -- some run reaches the deploy, and no run deploys another file
    · intro h
      obtain ⟨log, r, hrun, x, hx, hask⟩ := @reaches_stackDeploy host 0 sourceArtifact [] rawParams params
        hvalid hguard
      exact h _ _ _ _ log r hrun _ ⟨x, hx, _, hask⟩
    · intro h config turns artifact env log r hrun path hpath
      rwa [deployed_path hvalid hguard hrun hpath]
  rw [hcontained]
  cases habs : isAbsolute (paramText params (js "compose_file_path")) with
  | false =>
    rw [inside_relative_iff root habs hguard]
    simp
  | true =>
    -- an absolute path is read from the root, wherever the repository is
    have hroot : locate root (paramText params (js "compose_file_path")) =
        fromRoot (paramText params (js "compose_file_path")) := by
      rw [fromRoot_eq, locate_eq, start, if_pos habs]
    rw [LeadsInside, hroot]
    simp

/-- A deploy of one compose file, and its parameters with the defaults of the schema. -/
def composeParams (path : JsString) : Fields :=
  [(js "manager_id", .str (js "m1")), (js "stack_name", .str (js "app")),
    (js "compose_file_path", .str path), (js "image_uri", .str (js "db:1")),
    (js "service_name", .str (js "db"))]

def composeValidated (path : JsString) : Fields :=
  composeParams path ++
    [(js "health_timeout_seconds", .num (.ofNat 180)), (js "named_volumes", .arr [])]

/-- The theorem at a path that goes down and up again inside of the repository. -/
theorem compose_contained_relative :
    ComposeContained deployHost (js "/srv/repo") (composeParams (js "deploy/../app.yml")) ↔
      (isAbsolute (js "deploy/../app.yml") = false ∧
        (steps (segments (js "deploy/../app.yml"))).names ≠ []) ∨
      (isAbsolute (js "deploy/../app.yml") = true ∧ ∃ names, names ≠ [] ∧
        fromRoot (js "deploy/../app.yml") = locate (js "/srv/repo") dot ++ names) :=
  compose_contained_iff deployHost (js "/srv/repo") (composeParams (js "deploy/../app.yml"))
    (composeValidated (js "deploy/../app.yml")) rfl (by decide)

/-- An absolute path is let through wherever it leads. -/
theorem compose_escapes : ¬ ∀ (host : DeployHost) (root : JsString) (rawParams params : Fields),
    validateParameters rawParams swarmSchema = .ok params →
      leavesRepo (paramText params (js "compose_file_path")) = false →
        ComposeContained host root rawParams := by
  intro h
  have hvalid : validateParameters (composeParams (js "/etc/app.yml")) swarmSchema =
      .ok (composeValidated (js "/etc/app.yml")) := rfl
  have hguard : leavesRepo (paramText (composeValidated (js "/etc/app.yml"))
      (js "compose_file_path")) = false := by decide
  obtain ⟨log, r, hrun, x, hx, hask⟩ := @reaches_stackDeploy deployHost 0 sourceArtifact [] _ _ hvalid hguard
  obtain ⟨names, -, hnames⟩ := h deployHost (js "/srv/repo") _ _ hvalid hguard _ _ _ _ log r hrun
    (js "/etc/app.yml") ⟨x, hx, _, hask⟩
  have hbelow : locate (js "/srv/repo") dot <+: locate (js "/srv/repo") (js "/etc/app.yml") :=
    ⟨names, hnames.symm⟩
  exact absurd hbelow (by decide)

end Homelab
