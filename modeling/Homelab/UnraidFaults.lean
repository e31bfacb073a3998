import Homelab.UnraidSwap

/-! Runs of a deploy to Unraid that leave the host half-swapped, and the exact condition under
which there are none. -/
namespace Homelab
open Js Path Dialogue LiveValue

variable {host : DeployHost} {mayReject : DeployAsk → Prop} {artifact : BuildArtifact}
  {params : Fields} {name : JsString} {turns : ℕ} {w w' : UnraidWorld}

/-- The clock can be read now and a minute later. -/
def Dated (host : DeployHost) (w : UnraidWorld) : Prop :=
  ∀ t, t ≤ w.clock+60000 → ∃ text, host.isoString t = .ok text

/-! ### Runs of a poll -/

theorem plays_now (t : ℕ) (hlater : w.clock ≤ t) (hdate : ∃ text, host.isoString t = .ok text) :
    Plays (UnraidStep host mayReject) Deploy.now w (.ok t) { w with clock := t } :=
  .ask ⟨hlater, hdate, rfl⟩ (.done _ _)

/-- What an inspection says that leaves the configuration out. -/
def observed (c : Container) : ContainerInspect := ⟨c.running, none, .undefined⟩

theorem plays_inspect : Plays (UnraidStep host mayReject) (Deploy.inspectContainer (.str name)) w
    (.ok ((w.containers name).map observed)) w := by
  have htrue : ((w.containers name).map observed).map ContainerInspect.running =
      (w.containers name).map Container.running := Option.map_map ..
  exact plays_call (q := .inspectContainer (.str name)) (a := Except.ok _) ⟨htrue, rfl⟩ rfl

/-- A container that runs is seen at once. -/
theorem plays_poll_running (hturns : 31 ≤ turns) (hdate : ∃ text, host.isoString w.clock = .ok text)
    (hrunning : (w.containers name).any Container.running = true) :
    Plays (UnraidStep host mayReject) (pollForRunning turns (.str name)) w (.ok ()) w := by
  obtain ⟨k, rfl⟩ : ∃ k, turns = k+1 := ⟨turns-1, by omega⟩
  refine (plays_now w.clock le_rfl hdate).then ?_
  rw [awaitContainer]
  refine (plays_now w.clock le_rfl hdate).then ?_
  rw [if_pos (by omega)]
  refine plays_inspect.then ?_
  rw [if_pos (by rw [Option.any_map]; exact hrunning)]
  exact .done () w

/-- The error of a container that does not come up. -/
def notRunning (name : JsString) : DeployError :=
  .plain .deployFailed (js "container " ++ name ++ js " did not reach running within 60000ms")

/-- The minute may be over before the first look. -/
theorem plays_poll_late (hturns : 31 ≤ turns) (hdates : Dated host w) :
    Plays (UnraidStep host mayReject) (pollForRunning turns (.str name)) w
      (.error (.thrown (.deploy (notRunning name)))) { w with clock := w.clock+60000 } := by
  obtain ⟨k, rfl⟩ : ∃ k, turns = k+1 := ⟨turns-1, by omega⟩
  refine (plays_now w.clock le_rfl (hdates _ (by omega))).then ?_
  rw [awaitContainer]
  refine (plays_now (w.clock+60000) (Nat.le_add_right _ _) (hdates _ le_rfl)).then ?_
  rw [if_neg (by omega)]
  exact .fail _ _

/-! ### Runs of the calls that change a container -/

theorem plays_add (config : JsValue) : Plays (UnraidStep host mayReject) (Deploy.addContainer config) w
    (.ok ()) (w.add config) :=
  plays_call (q := .addContainer config) (a := Except.ok ()) rfl rfl

theorem plays_start (up : Bool) : Plays (UnraidStep host mayReject) (Deploy.startContainer (.str name)) w
    (.ok ()) (w.start name up) :=
  plays_call (q := .startContainer (.str name)) (a := Except.ok ()) ⟨up, rfl⟩ rfl

theorem plays_stop : Plays (UnraidStep host mayReject) (Deploy.stopContainer (.str name)) w
    (.ok ()) (w.stop name) :=
  plays_call (q := .stopContainer (.str name)) (a := Except.ok ()) rfl rfl

theorem plays_remove : Plays (UnraidStep host mayReject) (Deploy.removeContainer (.str name)) w
    (.ok ()) (w.remove name) :=
  plays_call (q := .removeContainer (.str name)) (a := Except.ok ()) rfl rfl

/-- A container has been added and started. -/
def UnraidWorld.bring (w : UnraidWorld) (config : JsValue) (name : JsString) (up : Bool) :
    UnraidWorld := (w.add config).start name up

theorem bring_container {config : JsValue} {up : Bool} (hname : containerName config = some name) :
    (w.bring config name up).containers name = some ⟨config, true, up⟩ := by
  rw [UnraidWorld.bring, UnraidWorld.start, UnraidWorld.containers_alter, UnraidWorld.add, hname]
  simp [Container.start]

theorem bring_addedBy {config : JsValue} {up : Bool} (hname : containerName config = some name) :
    (w.bring config name up).addedBy name = some w.adds := by
  rw [UnraidWorld.bring, UnraidWorld.add, hname]
  exact Function.update_self ..

theorem bring_clock {config : JsValue} {up : Bool} : (w.bring config name up).clock = w.clock := by
  rw [UnraidWorld.bring, UnraidWorld.add]
  cases containerName config <;> rfl

theorem plays_swap {config : JsValue} {r : Except DeployStop Unit} (up : Bool)
    (h : Plays (UnraidStep host mayReject) (pollForRunning turns (.str name))
      (w.bring config name up) r w') :
    Plays (UnraidStep host mayReject) (swapContainer turns (.str name) config) w r w' :=
  (plays_add config).then ((plays_start up).then h)

theorem plays_swap_up {config : JsValue} (hname : containerName config = some name)
    (hturns : 31 ≤ turns) (hdates : Dated host w) :
    Plays (UnraidStep host mayReject) (swapContainer turns (.str name) config) w (.ok ())
      (w.bring config name true) := by
  apply plays_swap true
  apply plays_poll_running hturns
  · rw [bring_clock]
    exact hdates _ (Nat.le_add_right _ _)
  · rw [bring_container hname]
    rfl

/-- The host after a swap whose container has not come up in a minute. -/
def UnraidWorld.swapLate (w : UnraidWorld) (config : JsValue) (name : JsString) : UnraidWorld :=
  { w.bring config name false with clock := (w.bring config name false).clock+60000 }

theorem plays_swap_late {config : JsValue} (hturns : 31 ≤ turns) (hdates : Dated host w) :
    Plays (UnraidStep host mayReject) (swapContainer turns (.str name) config) w
      (.error (.thrown (.deploy (notRunning name)))) (w.swapLate config name) := by
  apply plays_swap false
  apply plays_poll_late hturns
  rw [Dated, bring_clock]
  exact hdates

theorem plays_restore {config : JsValue} (hname : containerName config = some name)
    (hturns : 31 ≤ turns) (hdate : ∃ text, host.isoString w.clock = .ok text) :
    Plays (UnraidStep host mayReject) (restoreContainer turns (.str name) config) w (.ok ())
      (((w.stop name).remove name).bring config name true) := by
  refine plays_stop.then (plays_remove.then ((plays_add config).then ((plays_start true).then ?_)))
  apply plays_poll_running hturns
  · have hclock : (((w.stop name).remove name).bring config name true).clock = w.clock := bring_clock
    rw [← hclock] at hdate
    exact hdate
  · have hback : (((w.stop name).remove name).bring config name true).containers name =
        some ⟨config, true, true⟩ := bring_container hname
    exact congrArg (Option.any Container.running) hback

/-! ### What follows a swap -/

/-- A record that cannot be written makes the deploy throw, and changes nothing. -/
theorem plays_record_fails (htexts : DeployTexts params artifact name) (hdates : Dated host w)
    (hnot : ¬ Recordable host mayReject artifact name) {env : JsString} {stateful : Bool}
    {platform : JsValue} :
    ∃ message, Plays (UnraidStep host mayReject)
      (unraidRecord host artifact env params (previousConfigOf artifact) stateful platform) w
      (.error (.thrown (.error message))) w := by
  obtain ⟨text, htext⟩ := hdates w.clock (Nat.le_add_right _ _)
  have hname : paramText params (js "container_name") = name := by
    rw [paramText, htexts.name]
    rfl
  have hiso : Plays (UnraidStep host mayReject) (currentIso host) w (.ok text) w := by
    refine (plays_now w.clock le_rfl ⟨text, htext⟩).then ?_
    rw [htext]
    exact .done _ _
  have hid : Plays (UnraidStep host mayReject) Deploy.generateId w (.ok (js "id")) w :=
    .ask (a := js "id") rfl (.done _ _)
  rw [unraidRecord, hname, htexts.name]
  cases hpath : unraidRecordPath host name with
  | error message =>
    refine ⟨message, hiso.then (hid.then ?_)⟩
    exact (Plays.fail _ w).throws
  | ok path =>
    have hpersist : ∃ message, Plays (UnraidStep host mayReject) (persistRecord host path
        [(js "container_name", .str name), (js "config", previousConfigOf artifact)]) w
        (.error (.thrown (.error message))) w := by
      change ∃ message, Plays _ ((Deploy.orThrow (signPayload host.toHmacHost
        (keptRecord artifact name))).bind fun signed => Deploy.writeRecord path signed) w _ w
      cases hsigned : signPayload host.toHmacHost (keptRecord artifact name) with
      | error message => exact ⟨message, (Plays.fail _ w).throws⟩
      | ok signed =>
        have hreject : mayReject (.writeRecord path signed) := by
          by_contra haccepts
          exact hnot ⟨path, signed, hpath, hsigned, haccepts⟩
        refine ⟨js "disk full", (Plays.done signed w).then ?_⟩
        exact plays_rejected (q := .writeRecord path signed) (a := Except.error _)
          ⟨hreject, Or.inr rfl⟩ rfl
    obtain ⟨message, hpersist⟩ := hpersist
    exact ⟨message, hiso.then (hid.then ((Plays.done path w).then hpersist.throws))⟩

/-- When nothing has been captured, the error of the swap is thrown as it is. -/
theorem plays_swapFailed_nullish {config : JsValue} (hnullish : isNullish config = true)
    (e : DeployFailure) : Plays (UnraidStep host mayReject) (swapFailed turns (.str name) config e) w
      (.error (.thrown e)) w := by
  rw [swapFailed, if_pos hnullish]
  exact .fail _ w

/-- A rollback that succeeds is followed by an error that does not speak of a failed one. -/
theorem plays_swapFailed_restored {config : JsValue} (hsome : ¬ isNullish config = true)
    (hname : containerName config = some name) (hturns : 31 ≤ turns)
    (hdate : ∃ text, host.isoString w.clock = .ok text) (e : DeployFailure) :
    ∃ stop, ¬ SaysRollbackFailed stop ∧
      Plays (UnraidStep host mayReject) (swapFailed turns (.str name) config e) w (.error stop)
        (((w.stop name).remove name).bring config name true) := by
  rw [swapFailed, if_neg hsome]
  have hrestore := @plays_restore host mayReject name turns w config hname hturns hdate
  have hfailure : Plays (UnraidStep host mayReject)
      (Deploy.failureOf (restoreContainer turns (.str name) config)) w (.ok none)
      (((w.stop name).remove name).bring config name true) :=
    plays_catching_ok (hrestore.then (.done none _))
  by_cases hthrows : ((property (js "image") config).orElse (.str (js "unknown"))).throwsOnCoerce = true
  · refine ⟨.thrown (.error coercionMessage), id, Plays.throws (hfailure.then (Plays.throws ?_))⟩
    rw [templateOf, if_pos hthrows]
    exact .fail _ _
  · have himage (t : UnraidWorld) : Plays (UnraidStep host mayReject)
        (templateOf ((property (js "image") config).orElse (.str (js "unknown")))) t
        (.ok ((property (js "image") config).orElse (.str (js "unknown"))).coerce) t := by
      rw [templateOf, if_neg hthrows]
      exact .done _ t
    refine ⟨_, ?_, Plays.then (hfailure.then ((himage _).then (.done _ _))) (.fail _ _)⟩
    exact fun hnoted => by cases hnoted.2

/-! ### The way to the swap -/

/-- Every mount of validated parameters has a path on the host. -/
theorem mounts_texts {rawParams : Fields}
    (hvalid : validateParameters rawParams unraidSchema = .ok params) :
    ∀ mount ∈ arrayParam params (js "storage_mounts"),
      ∃ s, property (js "host_path") mount = .str s := by
  have hschema : (js "storage_mounts", ParamSchema.array false (.arr []) (some (.object false
      .undefined none (some [(js "host_path", requiredText .absolutePath),
        (js "container_path", requiredText .absolutePath),
        (js "readonly", .boolean false (.bool false))])))) ∈ unraidSchema := by
    simp only [unraidSchema, List.mem_cons, true_or, or_true]
  have hkept := getOwn_validated hvalid (by decide) hschema
  rw [checkOne, givenOr] at hkept
  rw [arrayParam]
  cases hraw : getOwn (js "storage_mounts") rawParams with
  | undefined =>
    rw [hraw] at hkept
    rw [← Except.ok.inj hkept]
    exact fun mount hmount => absurd hmount List.not_mem_nil
  | null =>
    rw [hraw] at hkept
    rw [← Except.ok.inj hkept]
    exact fun mount hmount => absurd hmount List.not_mem_nil
  | arr elems =>
    rw [hraw] at hkept
    change (checkElements (js "storage_mounts") elems _).map (fun _ => JsValue.arr elems) = _ at hkept
    rw [checkElements] at hkept
    obtain ⟨u, hall, hkept⟩ := map_ok_iff.mp hkept
    rw [hkept]
    intro mount hmount
    obtain ⟨i, hi⟩ := List.mem_iff_getElem?.mp hmount
    have helem := forM_ok hall (mount, i) (List.mk_mem_zipIdx_iff_getElem?.mpr hi)
    obtain ⟨fields, _, hproperties⟩ := LiveValue.bind_ok_iff.mp helem
    rw [checkProperties] at hproperties
    obtain ⟨path, hpath, _⟩ := LiveValue.bind_ok_iff.mp hproperties
    obtain ⟨s, hs, _⟩ := checkOne_requiredText hpath
    exact ⟨s, hs⟩
  | _ =>
    rw [hraw] at hkept
    cases hkept

/-- Shares can be such that every mount is under one. -/
theorem plays_checkMounts {mounts : List JsValue}
    (hmounts : ∀ mount ∈ mounts, ∃ s, property (js "host_path") mount = .str s) :
    Plays (UnraidStep host mayReject) (checkMounts mounts) w (.ok ()) w := by
  rw [checkMounts]
  split_ifs
  · exact .done () w
  · let shares := mounts.map fun mount => (property (js "host_path") mount).coerce
    have hunder : ∀ mount ∈ mounts, shares.any (underShare mount) = true := by
      intro mount hmount
      obtain ⟨s, hs⟩ := hmounts mount hmount
      have hshare : s ∈ shares := List.mem_map.mpr ⟨mount, hmount, by rw [hs]; rfl⟩
      refine List.any_eq_true.mpr ⟨s, hshare, ?_⟩
      rw [underShare, hs]
      simp
    have hnone : (mounts.find? fun mount => !shares.any (underShare mount)) = none := by
      apply List.find?_eq_none.mpr
      intro mount hmount
      rw [hunder mount hmount]
      decide
    have hshares : Plays (UnraidStep host mayReject) Deploy.getShares w (.ok shares) w :=
      plays_call (q := .getShares) (a := Except.ok shares) rfl rfl
    refine hshares.then ?_
    rw [hnone]
    exact .done () w

/-- Whatever a deploy can do from its first look on, it can do from the start. -/
theorem plays_deploy {rawParams : Fields} {config : StatefulDeployConfig} {env : JsString}
    (hvalid : validateParameters rawParams unraidSchema = .ok params) :
    ∃ stateful platform, ∀ r w', Plays (UnraidStep host mayReject)
      (unraidRelease host turns artifact env params stateful platform) w r w' →
        Plays (UnraidStep host mayReject)
          (unraidDeploy host config turns artifact env rawParams) w r w' := by
  obtain ⟨stateful, target, hdeploy⟩ := @unraidDeploy_valid host artifact params turns
    rawParams config env hvalid
  have hclient : Plays (UnraidStep host mayReject)
      (Deploy.getClient (getOwn (js "host_id") params)) w (.ok ()) w :=
    plays_call (q := .getClient _) (a := Except.ok ()) rfl rfl
  have hgate : Plays (UnraidStep host mayReject) (requireBackupOf config stateful
      ((getOwn (js "backup_platform") params).orElse (.str (js "unraid"))) target) w (.ok ()) w := by
    rw [requireBackupOf]
    split_ifs
    · have hverify (input : VerifyInput) : Plays (UnraidStep host mayReject)
          (Deploy.verifyBackup input) w (.ok .null) w :=
        plays_call (q := .verifyBackup input) (a := Except.ok .null) rfl rfl
      exact (hverify _).then (.done () w)
    · exact .done () w
  rw [hdeploy]
  refine ⟨stateful, (getOwn (js "backup_platform") params).orElse (.str (js "unraid")), ?_⟩
  intro r w' h
  exact hclient.then ((plays_checkMounts (mounts_texts hvalid)).then (hgate.then h))

variable {c : Container} {env : JsString} {stateful : Bool} {platform : JsValue}

/-- The swap of a deploy, and its record. -/
def swapAndRecord (host : DeployHost) (turns : ℕ) (artifact : BuildArtifact) (env : JsString)
    (params : Fields) (name : JsString) (stateful : Bool) (platform : JsValue) :
    Deploy DeploymentRecord :=
  (Deploy.catching (swapContainer turns (.str name) (containerPayload params (deployedImage artifact)))
    (swapFailed turns (.str name) (previousConfigOf artifact))).bind fun _ =>
      unraidRecord host artifact env params (previousConfigOf artifact) stateful platform

theorem plays_swapAndRecord_failed {e : DeployFailure} {stop : DeployStop} {t : UnraidWorld}
    (hswap : Plays (UnraidStep host mayReject) (swapContainer turns (.str name)
      (containerPayload params (deployedImage artifact))) w (.error (.thrown e)) t)
    (hfailed : Plays (UnraidStep host mayReject)
      (swapFailed turns (.str name) (previousConfigOf artifact) e) t (.error stop) w') :
    Plays (UnraidStep host mayReject)
      (swapAndRecord host turns artifact env params name stateful platform) w (.error stop) w' :=
  (plays_catching_thrown hswap hfailed).throws

theorem plays_swapAndRecord_up {r : Except DeployStop DeploymentRecord} {t : UnraidWorld}
    (hswap : Plays (UnraidStep host mayReject) (swapContainer turns (.str name)
      (containerPayload params (deployedImage artifact))) w (.ok ()) t)
    (hrecord : Plays (UnraidStep host mayReject)
      (unraidRecord host artifact env params (previousConfigOf artifact) stateful platform) t r w') :
    Plays (UnraidStep host mayReject)
      (swapAndRecord host turns artifact env params name stateful platform) w r w' :=
  (plays_catching_ok hswap).then hrecord

/-- A container that is there is stopped before the swap. -/
theorem plays_release {r : Except DeployStop DeploymentRecord}
    (htexts : DeployTexts params artifact name) (hc : w.containers name = some c)
    (h : Plays (UnraidStep host mayReject)
      (swapAndRecord host turns artifact env params name stateful platform) (w.stop name) r w') :
    Plays (UnraidStep host mayReject) (unraidRelease host turns artifact env params stateful platform)
      w r w' := by
  obtain ⟨image, himage⟩ := htexts.image
  obtain ⟨digest, hdigest⟩ := htexts.digest
  rw [swapAndRecord, deployedImage, himage, hdigest] at h
  have hstop : Plays (UnraidStep host mayReject)
      (stopExisting ((w.containers name).map observed) (.str name)) w (.ok ()) (w.stop name) := by
    rw [stopExisting, hc]
    exact plays_stop
  rw [unraidRelease, htexts.name, himage, hdigest]
  exact plays_inspect.then (hstop.then ((Plays.done image _).then ((Plays.done digest _).then h)))

/-- The stop may be rejected after it has taken effect. -/
theorem plays_release_lost (htexts : DeployTexts params artifact name)
    (hc : w.containers name = some c) (hreject : mayReject (.stopContainer (.str name))) :
    Plays (UnraidStep host mayReject) (unraidRelease host turns artifact env params stateful platform)
      w (.error (.thrown (.error (js "socket hang up")))) (w.stop name) := by
  have hstop : Plays (UnraidStep host mayReject)
      (stopExisting ((w.containers name).map observed) (.str name)) w
      (.error (.thrown (.error (js "socket hang up")))) (w.stop name) := by
    rw [stopExisting, hc]
    exact plays_rejected (q := .stopContainer (.str name)) (a := Except.error _)
      ⟨hreject, Or.inl rfl⟩ rfl
  rw [unraidRelease, htexts.name]
  exact plays_inspect.then hstop.throws

/-- No deploy may throw like this that has left its own container in place. -/
theorem not_excused {e : DeployStop} (hadded : w'.addedBy name = some 0)
    (hnoted : ¬ SaysRollbackFailed e) : ¬ Excused (some c) name e w' := by
  rintro ⟨_, hkept | hfailed⟩
  · obtain ⟨c', _, _, _, hother⟩ := hkept c rfl
    exact hother hadded
  · exact hnoted hfailed

/-- A deploy that is excused in every run is a safe one for the container that is there. -/
theorem swapSafe_of_excused (htexts : DeployTexts params artifact name) (hturns : 31 ≤ turns)
    (hdates : Dated host w) (hadds : w.adds = 0) (hc : w.containers name = some c)
    (h : ∀ e w', Plays (UnraidStep host mayReject)
      (unraidRelease host turns artifact env params stateful platform) w (.error e) w' →
        Excused (some c) name e w') : SwapSafe host mayReject artifact name c := by
  have hpayload := containerName_payload htexts (deployedImage artifact)
  have hplain : ¬ SaysRollbackFailed (.thrown (.deploy (notRunning name))) :=
    fun hnoted => by cases hnoted.1
  have hadded (up : Bool) : ((w.stop name).bring (containerPayload params (deployedImage artifact))
      name up).addedBy name = some 0 := by
    rw [bring_addedBy hpayload]
    exact congrArg some hadds
  have hswap (e : DeployStop) (w' : UnraidWorld) (hrun : Plays (UnraidStep host mayReject)
      (swapAndRecord host turns artifact env params name stateful platform) (w.stop name)
      (.error e) w') : Excused (some c) name e w' := h e w' (plays_release htexts hc hrun)
  have hlate := @plays_swap_late host mayReject name turns (w.stop name)
    (containerPayload params (deployedImage artifact)) hturns hdates
  have hcaptured : ¬ isNullish (previousConfigOf artifact) = true := by
    intro hnullish
    have hlateAdded : ((w.stop name).swapLate (containerPayload params (deployedImage artifact))
        name).addedBy name = some 0 := hadded false
    exact not_excused hlateAdded hplain
      (hswap _ _ (plays_swapAndRecord_failed hlate (plays_swapFailed_nullish hnullish _)))
  refine ⟨?_, ?_, Bool.not_eq_true _ ▸ hcaptured, ?_⟩
  · intro hreject
    obtain ⟨_, hkept | hnoted⟩ := h _ _ (plays_release_lost htexts hc hreject)
    · obtain ⟨c', hc', _, hrunning, _⟩ := hkept c rfl
      have hhalted : (w.stop name).containers name = some c.halt := by
        rw [UnraidWorld.stop, UnraidWorld.containers_alter, hc]
        rfl
      rw [hhalted] at hc'
      obtain rfl := Option.some.inj hc'
      by_contra hwas
      have hstill := hrunning (Bool.not_eq_false _ ▸ hwas)
      cases hstill
    · exact hnoted.elim
  · by_contra hnot
    have hup := @plays_swap_up host mayReject name turns (w.stop name) _ hpayload hturns hdates
    have hdates' : Dated host ((w.stop name).bring
        (containerPayload params (deployedImage artifact)) name true) := by
      rw [Dated, bring_clock]
      exact hdates
    obtain ⟨message, hrecord⟩ := @plays_record_fails host mayReject artifact params name _ htexts
      hdates' hnot env stateful platform
    exact not_excused (hadded true) id (hswap _ _ (plays_swapAndRecord_up hup hrecord))
  · intro hname
    have hdate : ∃ text, host.isoString ((w.stop name).swapLate
        (containerPayload params (deployedImage artifact)) name).clock = .ok text := by
      rw [UnraidWorld.swapLate, bring_clock]
      exact hdates _ le_rfl
    obtain ⟨stop, hnoted, hrollback⟩ := @plays_swapFailed_restored host mayReject name turns _ _
      hcaptured hname hturns hdate (.deploy (notRunning name))
    obtain ⟨_, hkept | hfailed⟩ := hswap _ _ (plays_swapAndRecord_failed hlate hrollback)
    · obtain ⟨c', hc', hconfig, _, _⟩ := hkept c rfl
      rw [bring_container hname] at hc'
      obtain rfl := Option.some.inj hc'
      exact hconfig
    · exact absurd hfailed hnoted

/-! ### All failures -/

/-- In every run from this state of the host, the deploy returns with the new container running
and its record in its file, or rejects in a way that is excused. -/
def LeavesWhole (host : DeployHost) (mayReject : DeployAsk → Prop) (params : Fields)
    (artifact : BuildArtifact) (name : JsString) (w : UnraidWorld) (m : Deploy DeploymentRecord) :
    Prop :=
  Triple (UnraidStep host mayReject) (· = w) m
    (fun _ w' => SwappedIn params artifact name w' ∧ RecordWritten host artifact name w')
    (Excused (w.containers name) name)

theorem swapSafe_of_whole {config : StatefulDeployConfig} {rawParams : Fields}
    (hvalid : validateParameters rawParams unraidSchema = .ok params)
    (hname : getOwn (js "container_name") params = .str name) (hbuilt : BuiltBy host artifact)
    (hturns : 31 ≤ turns) (hdates : Dated host w) (hadds : w.adds = 0)
    (hc : w.containers name = some c)
    (h : LeavesWhole host mayReject params artifact name w
      (unraidDeploy host config turns artifact env rawParams)) :
    SwapSafe host mayReject artifact name c := by
  obtain ⟨stateful, platform, hdeploy⟩ := @plays_deploy host mayReject artifact params turns w
    rawParams config env hvalid
  have hexcused (e : DeployStop) (w' : UnraidWorld) (hrun : Plays (UnraidStep host mayReject)
      (unraidRelease host turns artifact env params stateful platform) w (.error e) w') :
      Excused (some c) name e w' := hc ▸ (h w _ w' rfl (hdeploy _ w' hrun)).2 e rfl
  exact swapSafe_of_excused (deployTexts_of hvalid hname hbuilt) hturns hdates hadds hc hexcused

/-- A deploy to Unraid leaves no half-swapped container, whatever calls fail, exactly when there
is no container of its name before, or that container survives every failure. -/
theorem deploy_whole_iff (host : DeployHost) (mayReject : DeployAsk → Prop)
    (config : StatefulDeployConfig) (turns : ℕ) (artifact : BuildArtifact) (env : JsString)
    (rawParams params : Fields) (name : JsString) (containers : JsString → Option Container)
    (files : JsString → Option Signed) (clock : ℕ)
    (hvalid : validateParameters rawParams unraidSchema = .ok params)
    (hname : getOwn (js "container_name") params = .str name) (hbuilt : BuiltBy host artifact)
    (hturns : 31 ≤ turns) (hdates : Dated host (.initial containers files clock)) :
    LeavesWhole host mayReject params artifact name (.initial containers files clock)
        (unraidDeploy host config turns artifact env rawParams) ↔
      ∀ c, containers name = some c → SwapSafe host mayReject artifact name c := by
  constructor
  · intro h c hc
    exact swapSafe_of_whole hvalid hname hbuilt hturns hdates rfl hc h
  · intro hsafe
    refine (triple_unraidDeploy hsafe hvalid hname hbuilt hturns).weaken ?_ (fun _ _ h => h)
      fun _ _ h => h
    rintro w rfl
    exact ⟨rfl, rfl, rfl⟩

/-! ### A container whose name has a dot -/

def dottedParams : Fields :=
  [(js "host_id", .str (js "tower")), (js "container_name", .str (js "web.app")),
    (js "image_uri", .str (js "web:2"))]

/-- The parameters with the defaults of the schema. -/
def dottedValidated : Fields :=
  [(js "host_id", .str (js "tower")), (js "container_name", .str (js "web.app")),
    (js "image_uri", .str (js "web:2")), (js "network_mode", .str (js "bridge")),
    (js "port_mappings", .arr []), (js "storage_mounts", .arr []), (js "env", .obj []),
    (js "health_timeout_seconds", .num (.ofNat 120))]

theorem dottedParams_valid : validateParameters dottedParams unraidSchema = .ok dottedValidated := rfl

/-- The configuration of the container that runs. -/
def dottedConfig : JsValue := .obj [(js "name", .str (js "web.app")), (js "image", .str (js "web:1"))]

def dottedContainers (name : JsString) : Option Container :=
  if name = js "web.app" then some ⟨dottedConfig, true, true⟩ else none

/-- The artifact of a build that has captured that configuration. -/
def dottedArtifact : BuildArtifact where
  kind := js "docker-image"
  location := js "docker://web:2@sha256:ab"
  checksum := js "sha256:ab"
  metadata := [(js "host_id", .str (js "tower")), (js "container_name", .str (js "web.app")),
    (js "image_uri", .str (js "web:2")), (js "digest", .str (js "sha256:ab")),
    (js "previous_container_config", dottedConfig)]

theorem dottedArtifact_built : BuiltBy deployHost dottedArtifact := by
  let pulled : PullStatus := ⟨js "complete", .str (js "sha256:ab"), .num (.ofNat 1), .undefined⟩
  let inspected : ContainerInspect := ⟨true, none, dottedConfig⟩
  refine ⟨⟨js "0a1b", dottedParams⟩, [⟨.getClient (.str (js "tower")), .ok ()⟩,
    ⟨.pullImage (js "web:2"), .ok true⟩, ⟨.pullStatus (js "web:2"), .ok pulled⟩, ⟨.now, (0 : ℕ)⟩,
    ⟨.inspectContainer (.str (js "web.app")), .ok (some inspected)⟩], ?_⟩
  rw [unraidBuild, dottedParams_valid]
  exact .ask trivial (.ask trivial (.ask trivial (.ask trivial (.ask trivial (.done _)))))

/-- The host before the deploy. -/
def dottedWorld : UnraidWorld := .initial dottedContainers (fun _ => none) 0

theorem dottedWorld_dated : Dated deployHost dottedWorld := fun _ _ => ⟨_, rfl⟩

/-- The theorem on a host that rejects nothing. -/
theorem deploy_whole_dotted : LeavesWhole deployHost (fun _ => False) dottedValidated dottedArtifact
    (js "web.app") dottedWorld
    (unraidDeploy deployHost ⟨true, none⟩ 31 dottedArtifact (js "prod") dottedParams) ↔
      ∀ c, dottedContainers (js "web.app") = some c →
        SwapSafe deployHost (fun _ => False) dottedArtifact (js "web.app") c :=
  deploy_whole_iff deployHost (fun _ => False) ⟨true, none⟩ 31 dottedArtifact (js "prod")
    dottedParams dottedValidated (js "web.app") dottedContainers (fun _ => none) 0
    dottedParams_valid rfl dottedArtifact_built le_rfl dottedWorld_dated

/-- The file of a record cannot have the name of such a container. -/
theorem dotted_not_recordable {mayReject : DeployAsk → Prop} :
    ¬ Recordable deployHost mayReject dottedArtifact (js "web.app") := by
  rintro ⟨path, signed, hpath, _⟩
  have hsafe : safeKey (js "web.app") = false := by decide
  rw [unraidRecordPath, recordPath, hsafe] at hpath
  cases hpath

/-- Not every deploy leaves the host whole: this one replaces the container and then rejects,
though no call of it has failed. -/
theorem deploy_whole_fails : ¬ ∀ (host : DeployHost) (mayReject : DeployAsk → Prop)
    (config : StatefulDeployConfig) (turns : ℕ) (artifact : BuildArtifact) (env : JsString)
    (rawParams params : Fields) (name : JsString) (containers : JsString → Option Container)
    (files : JsString → Option Signed) (clock : ℕ),
    validateParameters rawParams unraidSchema = .ok params →
    getOwn (js "container_name") params = .str name → BuiltBy host artifact → 31 ≤ turns →
    Dated host (.initial containers files clock) →
      LeavesWhole host mayReject params artifact name (.initial containers files clock)
        (unraidDeploy host config turns artifact env rawParams) := by
  intro h
  have hwhole := h deployHost (fun _ => False) ⟨true, none⟩ 31 dottedArtifact (js "prod")
    dottedParams dottedValidated (js "web.app") dottedContainers (fun _ => none) 0
    dottedParams_valid rfl dottedArtifact_built le_rfl dottedWorld_dated
  have hsafe := swapSafe_of_whole dottedParams_valid rfl dottedArtifact_built le_rfl
    dottedWorld_dated rfl (c := ⟨dottedConfig, true, true⟩) rfl hwhole
  exact dotted_not_recordable hsafe.record

end Homelab
