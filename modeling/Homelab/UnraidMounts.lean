import Homelab.PathSteps
import Homelab.UnraidFaults

/-! The directories of the host that a deploy to Unraid mounts, and the shares. -/
namespace Homelab
open Js Path Dialogue

/-! ### What is mounted -/

/-- A host whose shares are these; whatever else it is asked it may answer in any way. -/
def sharesAnswer (shares : List JsString) : ∀ q, DeployAnswer q → Prop
  | .getShares, r => ∀ listed, r = Except.ok listed → listed = shares
  | _, _ => True

/-- The mounts of a container that is added. -/
def mountsOf (payload : JsValue) : List JsValue :=
  match property (js "volumes") payload with
  | .arr mounts => mounts
  | _ => []

/-- The deploy with these parameters has passed the mount to `addContainer`. -/
def Passed (params : Fields) (log : List (Exchange DeployAnswer)) (mount : JsValue) : Prop :=
  ∃ x ∈ log, ∃ image, x.ask = .addContainer (containerPayload params image) ∧
    mount ∈ mountsOf (containerPayload params image)

/-- The path of the mount leads to a share or below one. -/
def UnderShare (shares : List JsString) (mount : JsValue) : Prop :=
  ∃ path, property (js "host_path") mount = .str path ∧
    ∃ share ∈ shares, Within (fromRoot share) (fromRoot path)

/-- In every run of a deploy with these parameters to a host with these shares, whatever is
mounted is under a share. -/
def MountsContained (host : DeployHost) (shares : List JsString) (rawParams params : Fields) : Prop :=
  ∀ config turns artifact env log r,
    Talks (sharesAnswer shares) (unraidDeploy host config turns artifact env rawParams) log r →
      ∀ mount, Passed params log mount → UnderShare shares mount

/-! ### Which paths the test of the code is right about -/

/-- The part of a path after its share never leads above the share, or leads from above it down
to a share. -/
def StaysUnder (shares : List JsString) (share rest : JsString) : Prop :=
  let t := steps (segments rest)
  t.ups = 0 ∨ ∃ other ∈ shares, Within (fromRoot other) (t.after (fromRoot share))

/-- The mount is a share, or is the text of a share and then stays under it. -/
def MountStays (shares : List JsString) (mount : JsValue) : Prop :=
  ∃ share ∈ shares, ∃ path, property (js "host_path") mount = .str path ∧
    (path = share ∨ ∃ rest, path = share ++ slash :: rest ∧ StaysUnder shares share rest)

/-- A mount has a path that starts with the text of no share. -/
def Refused (shares : List JsString) (mounts : List JsValue) : Prop :=
  ∃ mount ∈ mounts, shares.any (underShare mount) = false

theorem underShare_iff {mount : JsValue} {share : JsString} : underShare mount share = true ↔
    ∃ path, property (js "host_path") mount = .str path ∧
      (path = share ∨ ∃ rest, path = share ++ slash :: rest) := by
  have hstarts (path : JsString) :
      (share ++ [slash]).isPrefixOf path = true ↔ ∃ rest, path = share ++ slash :: rest := by
    rw [List.isPrefixOf_iff_prefix]
    constructor
    · rintro ⟨rest, rfl⟩
      exact ⟨rest, by rw [List.append_assoc, List.singleton_append]⟩
    · rintro ⟨rest, rfl⟩
      exact ⟨rest, by rw [List.append_assoc, List.singleton_append]⟩
  rw [underShare]
  cases property (js "host_path") mount with
  | str path => simp [hstarts]
  | _ => simp

/-- A path that starts with the text of a share leads under a share exactly when it stays
there. -/
theorem within_append_iff {shares : List JsString} {share : JsString} (hshare : share ∈ shares)
    (rest : JsString) :
    (∃ other ∈ shares, Within (fromRoot other) (fromRoot (share ++ slash :: rest))) ↔
      StaysUnder shares share rest := by
  rw [StaysUnder, fromRoot_append]
  constructor
  · exact Or.inr
  · rintro (hups | hother)
    · exact ⟨share, hshare, within_after hups _⟩
    · exact hother

/-- A mount that the test of the code lets through is under a share exactly when it
stays there. -/
theorem mountStays_iff {shares : List JsString} {mount : JsValue}
    (hunder : shares.any (underShare mount) = true) :
    UnderShare shares mount ↔ MountStays shares mount := by
  -- any share that the text starts with will do: under which share the path ends does not depend on it
  obtain ⟨share, hshare, htext⟩ := List.any_eq_true.mp hunder
  obtain ⟨path, hpath, hcase⟩ := underShare_iff.mp htext
  constructor
  · rintro ⟨path', hpath', hwithin⟩
    obtain rfl : path' = path := JsValue.str.inj (hpath'.symm.trans hpath)
    refine ⟨share, hshare, path', hpath, ?_⟩
    rcases hcase with rfl | ⟨rest, rfl⟩
    · exact Or.inl rfl
    · exact Or.inr ⟨rest, rfl, (within_append_iff hshare rest).mp hwithin⟩
  · rintro ⟨share', hshare', path', hpath', rfl | ⟨rest, rfl, hstays⟩⟩
    · exact ⟨path', hpath', path', hshare', List.prefix_rfl⟩
    · exact ⟨_, hpath', (within_append_iff hshare' rest).mpr hstays⟩

/-! ### What runs before a container is added -/

variable {host : DeployHost} {shares : List JsString} {params rawParams : Fields}
  {mounts : List JsValue} {log : List (Exchange DeployAnswer)}

/-- The mounts have passed the check only if each is, as a text, under a share. -/
theorem checkMounts_passed
    (h : Talks (sharesAnswer shares) (checkMounts mounts) log (.ok ())) : ¬ Refused shares mounts := by
  rintro ⟨mount, hmount, hrefused⟩
  have hne : mounts ≠ [] := List.ne_nil_of_mem hmount
  rw [checkMounts, if_neg hne] at h
  obtain ⟨answer, rest, hmay, hnext, -⟩ := talks_ask.mp h
  obtain ⟨listed, rfl, hcheck⟩ := talks_settle hnext
  obtain rfl : listed = shares := hmay listed rfl
  cases hfind : mounts.find? fun m => !listed.any (underShare m) with
  | none =>
    have hpasses := List.find?_eq_none.mp hfind mount hmount
    rw [hrefused] at hpasses
    exact hpasses rfl
  | some found =>
    rw [hfind] at hcheck
    obtain ⟨-, hcontra⟩ := talks_fail.mp hcheck
    cases hcontra

/-- The question is not to add a container. -/
def AddsNone (q : DeployAsk) : Prop := ∀ payload, q ≠ .addContainer payload

theorem asks_checkMounts : (checkMounts mounts).Asks AddsNone := by
  rw [checkMounts]
  split_ifs
  · trivial
  · apply asks_bind (asks_call (q := .getShares) fun payload h => by cases h)
    intro listed
    cases mounts.find? fun m => !listed.any (underShare m) <;> trivial

theorem asks_getClient (id : JsValue) : (Deploy.getClient id).Asks AddsNone :=
  asks_call (q := .getClient id) fun payload h => by cases h

theorem not_passed_of_asks {α : Type} {m : Deploy α} {r : Except DeployStop α} (hm : m.Asks AddsNone)
    (h : Talks (sharesAnswer shares) m log r) : ∀ mount, ¬ Passed params log mount := by
  rintro mount ⟨x, hx, image, hask, -⟩
  exact (hm.of_mem h x hx).1 _ hask

/-- What a deploy mounts has passed the check. -/
theorem not_refused_of_passed (hvalid : validateParameters rawParams unraidSchema = .ok params)
    {config : StatefulDeployConfig} {turns : ℕ} {artifact : BuildArtifact} {env : JsString}
    {r : Except DeployStop DeploymentRecord} {mount : JsValue}
    (h : Talks (sharesAnswer shares) (unraidDeploy host config turns artifact env rawParams) log r)
    (hpassed : Passed params log mount) :
    mount ∈ arrayParam params (js "storage_mounts") ∧
      ¬ Refused shares (arrayParam params (js "storage_mounts")) := by
  obtain ⟨x, hx, image, hask, hmount⟩ := hpassed
  refine ⟨hmount, ?_⟩
  obtain ⟨stateful, target, hdeploy⟩ := @unraidDeploy_valid host artifact params turns rawParams
    config env hvalid
  rw [hdeploy] at h
  have hpassed : Passed params log mount := ⟨x, hx, image, hask, hmount⟩
  -- neither of the two calls before the gate adds a container, so the check has ended before one is added
  rcases talks_bind.mp h with ⟨e, hclient, -⟩ | ⟨a, first, second, hclient, hrest, rfl⟩
  · exact absurd hpassed (not_passed_of_asks (asks_getClient _) hclient mount)
  rcases talks_bind.mp hrest with ⟨e, hcheck, -⟩ | ⟨u, third, fourth, hcheck, -, rfl⟩
  · rcases List.mem_append.mp hx with hfirst | hsecond
    · exact absurd ⟨x, hfirst, image, hask, hmount⟩
        (not_passed_of_asks (asks_getClient _) hclient mount)
    · exact absurd ⟨x, hsecond, image, hask, hmount⟩
        (not_passed_of_asks asks_checkMounts hcheck mount)
  · exact checkMounts_passed hcheck

/-! ### A run that mounts all -/

theorem sharesAnswer_exists (shares : List JsString) (q : DeployAsk) : ∃ a, sharesAnswer shares q a := by
  have hrejected : DeployFailure := .error (js "rejected")
  cases q with
  | now => exact ⟨(0 : ℕ), trivial⟩
  | sleep ms => exact ⟨(), trivial⟩
  | generateId => exact ⟨js "id", trivial⟩
  | getShares => exact ⟨.error hrejected, fun _ h => by cases h⟩
  | _ => exact ⟨.error hrejected, trivial⟩

/-- Mounts of which none is refused pass the check of a host with these shares. -/
theorem talks_checkMounts (h : ¬ Refused shares mounts) :
    ∃ log, Talks (sharesAnswer shares) (checkMounts mounts) log (.ok ()) := by
  rw [checkMounts]
  split_ifs
  · exact ⟨_, .done ()⟩
  · have hfind : mounts.find? (fun m => !shares.any (underShare m)) = none := by
      apply List.find?_eq_none.mpr
      intro mount hmount hnot
      exact h ⟨mount, hmount, (Bool.not_eq_true' _).mp hnot⟩
    have hshares : sharesAnswer shares .getShares (Except.ok shares) :=
      fun listed hlisted => (Except.ok.inj hlisted).symm
    refine ⟨_, .ask hshares (?_ : Talks _ _ [] _)⟩
    simp only [Deploy.settle, Dialogue.bind, hfind]
    exact .done ()

/-- An artifact that says nothing. -/
def bareArtifact : BuildArtifact := ⟨[], [], [], []⟩

theorem talks_getClient (id : JsValue) :
    Talks (sharesAnswer shares) (Deploy.getClient id) [⟨.getClient id, .ok ()⟩] (.ok ()) :=
  .ask trivial (.done ())

/-- On a host that has no container yet, the new one is added. -/
theorem reaches_release (stateful : Bool) (platform : JsValue) :
    Reaches (sharesAnswer shares)
      (.addContainer (containerPayload params (js "undefined@undefined")))
      (unraidRelease host 0 bareArtifact [] params stateful platform) := by
  have hswap : Reaches (sharesAnswer shares)
      (.addContainer (containerPayload params (js "undefined@undefined")))
      (swapContainer 0 (getOwn (js "container_name") params)
        (containerPayload params (js "undefined@undefined"))) :=
    reaches_first (sharesAnswer_exists shares) _ _
  have hinspect : sharesAnswer shares (.inspectContainer (getOwn (js "container_name") params))
      (Except.ok none) := trivial
  exact .ask hinspect ((hswap.attempt.bind (sharesAnswer_exists shares)).bind
    (sharesAnswer_exists shares))

/-- A deploy of which no mount is refused can add its container. -/
theorem reaches_deploy (host : DeployHost) (hvalid : validateParameters rawParams unraidSchema = .ok params)
    (h : ¬ Refused shares (arrayParam params (js "storage_mounts"))) :
    Reaches (sharesAnswer shares)
      (.addContainer (containerPayload params (js "undefined@undefined")))
      (unraidDeploy host ⟨false, none⟩ 0 bareArtifact [] rawParams) := by
  obtain ⟨stateful, target, hdeploy⟩ := @unraidDeploy_valid host bareArtifact params 0 rawParams
    ⟨false, none⟩ [] hvalid
  obtain ⟨log, hcheck⟩ := talks_checkMounts h
  have hgate (platform : JsValue) : Talks (sharesAnswer shares)
      (requireBackupOf ⟨false, none⟩ stateful platform target) [] (.ok ()) := by
    rw [requireBackupOf, Bool.and_false, if_neg Bool.false_ne_true]
    exact .done ()
  rw [hdeploy]
  exact (talks_getClient _).reaches (hcheck.reaches ((hgate _).reaches (reaches_release _ _)))

/-- Every mount of a deploy that adds its container has been passed. -/
theorem exists_passed (host : DeployHost) (hvalid : validateParameters rawParams unraidSchema = .ok params)
    (h : ¬ Refused shares (arrayParam params (js "storage_mounts"))) :
    ∃ log r, Talks (sharesAnswer shares)
        (unraidDeploy host ⟨false, none⟩ 0 bareArtifact [] rawParams) log r ∧
      ∀ mount ∈ arrayParam params (js "storage_mounts"), Passed params log mount := by
  obtain ⟨log, r, hrun, x, hx, hask⟩ := reaches_deploy host hvalid h
  exact ⟨log, r, hrun, fun mount hmount => ⟨x, hx, _, hask, hmount⟩⟩

/-! ### When every mount is under a share -/

/-- Whatever is mounted is under a share exactly when a mount is refused for its text, or each,
from the share that its text starts with, stays there. -/
theorem mounts_contained_iff (host : DeployHost) (shares : List JsString)
    (rawParams params : Fields) (hvalid : validateParameters rawParams unraidSchema = .ok params) :
    MountsContained host shares rawParams params ↔
      Refused shares (arrayParam params (js "storage_mounts")) ∨
      ∀ mount ∈ arrayParam params (js "storage_mounts"), MountStays shares mount := by
  have hunder (hnot : ¬ Refused shares (arrayParam params (js "storage_mounts"))) (mount : JsValue)
      (hmount : mount ∈ arrayParam params (js "storage_mounts")) :
      shares.any (underShare mount) = true := by
    by_contra hrefused
    exact hnot ⟨mount, hmount, (Bool.not_eq_true _).mp hrefused⟩
  constructor
  · intro h
    -- unless a mount is refused there is a run that mounts all
    by_cases hrefused : Refused shares (arrayParam params (js "storage_mounts"))
    · exact Or.inl hrefused
    · obtain ⟨log, r, hrun, hpassed⟩ := exists_passed host hvalid hrefused
      refine Or.inr fun mount hmount => (mountStays_iff (hunder hrefused mount hmount)).mp ?_
      exact h _ _ _ _ log r hrun mount (hpassed mount hmount)
  · intro h config turns artifact env log r hrun mount hpassed
    obtain ⟨hmount, hnot⟩ := not_refused_of_passed hvalid hrun hpassed
    have hstays := h.resolve_left hnot mount hmount
    exact (mountStays_iff (hunder hnot mount hmount)).mpr hstays

/-! ### A path that leaves its share -/

/-- A deploy that mounts one directory of the host. -/
def mountingParams (hostPath : JsString) : Fields :=
  [(js "host_id", .str (js "tower")), (js "container_name", .str (js "web")),
    (js "image_uri", .str (js "web:2")), (js "storage_mounts", .arr [.obj
      [(js "host_path", .str hostPath), (js "container_path", .str (js "/data"))]])]

/-- Those parameters with the defaults of the schema. -/
def mountingValidated (hostPath : JsString) : Fields :=
  [(js "host_id", .str (js "tower")), (js "container_name", .str (js "web")),
    (js "image_uri", .str (js "web:2")), (js "network_mode", .str (js "bridge")),
    (js "port_mappings", .arr []), (js "storage_mounts", .arr [.obj
      [(js "host_path", .str hostPath), (js "container_path", .str (js "/data"))]]),
    (js "env", .obj []), (js "health_timeout_seconds", .num (.ofNat 120))]

/-- The theorem at a path that goes down and up again inside of its share. -/
theorem mounts_contained_inside :
    MountsContained deployHost [js "/mnt/user/app"]
        (mountingParams (js "/mnt/user/app/a/../b")) (mountingValidated (js "/mnt/user/app/a/../b")) ↔
      Refused [js "/mnt/user/app"] (arrayParam (mountingValidated (js "/mnt/user/app/a/../b"))
        (js "storage_mounts")) ∨
      ∀ mount ∈ arrayParam (mountingValidated (js "/mnt/user/app/a/../b")) (js "storage_mounts"),
        MountStays [js "/mnt/user/app"] mount :=
  mounts_contained_iff deployHost [js "/mnt/user/app"] (mountingParams (js "/mnt/user/app/a/../b"))
    (mountingValidated (js "/mnt/user/app/a/../b")) rfl

/-- A path that starts with its share is mounted, though it leads to `/etc`. -/
theorem mount_escapes : ¬ ∀ (host : DeployHost) (shares : List JsString) (rawParams params : Fields),
    validateParameters rawParams unraidSchema = .ok params →
      MountsContained host shares rawParams params := by
  intro h
  let path : JsString := js "/mnt/user/app/../../../etc"
  have hvalid : validateParameters (mountingParams path) unraidSchema = .ok (mountingValidated path) := rfl
  have hmember := h deployHost [js "/mnt/user/app"] _ _ hvalid
  have hnot : ¬ Refused [js "/mnt/user/app"]
      (arrayParam (mountingValidated path) (js "storage_mounts")) := by
    rintro ⟨mount, hmount, hrefused⟩
    obtain rfl := List.mem_singleton.mp hmount
    exact absurd hrefused (by decide)
  obtain ⟨log, r, hrun, hpassed⟩ := exists_passed deployHost hvalid hnot
  obtain ⟨path', hpath', share, hshare, hwithin⟩ := hmember _ _ _ _ log r hrun _
    (hpassed _ (List.mem_singleton_self _))
  obtain rfl := List.mem_singleton.mp hshare
  obtain rfl : path = path' := JsValue.str.inj hpath'
  exact absurd hwithin (by decide)

end Homelab
