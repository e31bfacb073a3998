import Homelab.DeployGate
import Homelab.DeployRecords
import Homelab.UnraidHost

/-! What a deploy to Unraid leaves behind, whatever calls fail: the new container with its
record, the old container, or an error that owns up to a failed rollback. -/
namespace Homelab
open Js Path Dialogue LiveValue

/-! ### What a deploy should leave -/

/-- The configuration that the artifact has captured, as `deploy` reads it. -/
def previousConfigOf (artifact : BuildArtifact) : JsValue :=
  (getOwn (js "previous_container_config") artifact.metadata).orElse .null

/-- The image of the new container. -/
def deployedImage (artifact : BuildArtifact) : JsString :=
  (getOwn (js "image_uri") artifact.metadata).coerce ++ js "@" ++
    (getOwn (js "digest") artifact.metadata).coerce

/-- The record that a deploy writes. -/
def keptRecord (artifact : BuildArtifact) (name : JsString) : LiveValue :=
  .ofJs (.obj [(js "container_name", .str name), (js "config", previousConfigOf artifact)])

/-- The container of the name is the one that the deploy has added, and it runs. -/
structure SwappedIn (params : Fields) (artifact : BuildArtifact) (name : JsString)
    (w : UnraidWorld) : Prop where
  running : ∃ c, w.containers name = some c ∧
    c.config = containerPayload params (deployedImage artifact) ∧ c.running = true
  added : w.addedBy name = some 0

/-- The record of the deploy is in its file. -/
def RecordWritten (host : DeployHost) (artifact : BuildArtifact) (name : JsString) (w : UnraidWorld) :
    Prop :=
  ∃ path signed, unraidRecordPath host name = .ok path ∧
    signPayload host.toHmacHost (keptRecord artifact name) = .ok signed ∧ w.files path = some signed

/-- The container `c` is there, or has been put back, and is not the one of this deploy. -/
def ContainerKept (c : Container) (name : JsString) (w : UnraidWorld) : Prop :=
  ∃ c', w.containers name = some c' ∧ c'.config = c.config ∧
    (c.running = true → c'.running = true) ∧ w.addedBy name ≠ some 0

/-- The details of the error say that a rollback was attempted, and failed. -/
def SaysRollbackFailed : DeployStop → Prop
  | .thrown (.deploy e) => getOwn (js "rollback_attempted") e.details = .bool true ∧
      getOwn (js "rollback_success") e.details = .bool false
  | _ => False

/-- The deploy may reject in this way. -/
def Excused (before : Option Container) (name : JsString) (e : DeployStop) (w : UnraidWorld) : Prop :=
  e ≠ .polling ∧ ((∀ c, before = some c → ContainerKept c name w) ∨ SaysRollbackFailed e)

/-- The host as a deploy finds it. -/
def UnraidWorld.initial (containers : JsString → Option Container)
    (files : JsString → Option Signed) (clock : ℕ) : UnraidWorld :=
  ⟨containers, fun _ => none, 0, files, clock⟩

/-! ### When it does -/

/-- The record of the deploy can be written. -/
def Recordable (host : DeployHost) (mayReject : DeployAsk → Prop) (artifact : BuildArtifact)
    (name : JsString) : Prop :=
  ∃ path signed, unraidRecordPath host name = .ok path ∧
    signPayload host.toHmacHost (keptRecord artifact name) = .ok signed ∧
    ¬ mayReject (.writeRecord path signed)

/-- The container `c` survives every deploy that fails: a stop that is rejected cannot have
stopped it, the record of the new container can be written, and the captured configuration is
that of `c`, or one that is not brought up under the name of `c`. -/
structure SwapSafe (host : DeployHost) (mayReject : DeployAsk → Prop) (artifact : BuildArtifact)
    (name : JsString) (c : Container) : Prop where
  stop : mayReject (.stopContainer (.str name)) → c.running = false
  record : Recordable host mayReject artifact name
  captured : isNullish (previousConfigOf artifact) = false
  current : containerName (previousConfigOf artifact) = some name → previousConfigOf artifact = c.config

variable {host : DeployHost} {mayReject : DeployAsk → Prop} {artifact : BuildArtifact}
  {params : Fields} {name : JsString} {before : Option Container} {turns : ℕ}

/-! ### Before the swap -/

/-- Nothing has happened to the container. -/
structure Untouched (before : Option Container) (name : JsString) (w : UnraidWorld) : Prop where
  container : w.containers name = before
  addedBy : w.addedBy name = none
  adds : w.adds = 0

/-- The container has been stopped, if there was one. -/
structure Halted (name : JsString) (w : UnraidWorld) : Prop where
  addedBy : w.addedBy name = none
  adds : w.adds = 0

theorem Untouched.excused {w : UnraidWorld} (h : Untouched before name w) {e : DeployFailure} :
    Excused before name (.thrown e) w := by
  refine ⟨by simp, Or.inl ?_⟩
  rintro c rfl
  refine ⟨c, h.container, rfl, id, ?_⟩
  rw [h.addedBy]
  simp

theorem UnraidWorld.containers_alter (w : UnraidWorld) (change : Container → Option Container) :
    (w.alter name change).containers name = (w.containers name).bind change :=
  Function.update_self ..

/-- A container that is stopped first: if the stop is rejected, nothing is lost. -/
theorem triple_stopExisting (hsafe : ∀ c, before = some c → SwapSafe host mayReject artifact name c)
    {existing : Option ContainerInspect} :
    Triple (UnraidStep host mayReject) (fun w => Untouched before name w)
      (stopExisting existing (.str name)) (fun _ w => Halted name w)
      (Excused before name) := by
  rw [stopExisting]
  split_ifs
  · apply triple_call (q := .stopContainer (.str name))
    · rintro w w' a v hw hstep hanswer
      change a = .ok v at hanswer
      subst hanswer
      obtain rfl : w' = w.stop name := hstep
      exact ⟨hw.addedBy, hw.adds⟩
    · rintro w w' a e hw hstep hanswer
      change a = .error e at hanswer
      subst hanswer
      obtain ⟨hreject, rfl | rfl⟩ := hstep
      · -- it took effect, of a container that was not running
        refine ⟨by simp, Or.inl ?_⟩
        rintro c hc
        have hstopped := (hsafe c hc).stop hreject
        refine ⟨c.halt, ?_, rfl, ?_, ?_⟩
        · change (w.alter name _).containers name = _
          rw [UnraidWorld.containers_alter, hw.container, hc]
          rfl
        · intro hrunning
          rw [hstopped] at hrunning
          cases hrunning
        · change w.addedBy name ≠ some 0
          rw [hw.addedBy]
          simp
      · exact hw.excused
  · exact triple_done fun w hw => ⟨hw.addedBy, hw.adds⟩

/-! ### The swap -/

/-- The container of the name has this configuration, from this call of `addContainer`. -/
structure Standing (name : JsString) (config : JsValue) (call : ℕ) (w : UnraidWorld) : Prop where
  container : (w.containers name).map Container.config = some config
  addedBy : w.addedBy name = some call
  adds : w.adds = call+1

theorem Waits.config {w w' : UnraidWorld} {ms : ℕ} (h : w.Waits ms w') :
    (w'.containers name).map Container.config = (w.containers name).map Container.config := by
  have hname := h.containers name
  cases hc : w.containers name with
  | none =>
    rw [hc] at hname
    cases hc' : w'.containers name with
    | none => rfl
    | some c' =>
      rw [hc'] at hname
      cases hname
  | some c =>
    rw [hc] at hname
    cases hc' : w'.containers name with
    | none =>
      rw [hc'] at hname
      cases hname
    | some c' =>
      rw [hc'] at hname
      cases hname with
      | some hsettled => exact congrArg some hsettled.1

theorem steady_standing {config : JsValue} {call : ℕ} : Steady (Standing name config call) where
  clock _ _ h := ⟨h.container, h.addedBy, h.adds⟩
  waits _ _ _ h hwaits :=
    ⟨(Waits.config hwaits).trans h.container, hwaits.addedBy ▸ h.addedBy, hwaits.adds ▸ h.adds⟩

theorem standing_start {config : JsValue} {call : ℕ} {w : UnraidWorld} {up : Bool}
    (h : Standing name config call w) : Standing name config call (w.start name up) := by
  refine ⟨?_, h.addedBy, h.adds⟩
  rw [UnraidWorld.start, UnraidWorld.containers_alter, ← h.container]
  cases w.containers name <;> rfl

theorem standing_add {config : JsValue} {w : UnraidWorld} (h : containerName config = some name) :
    Standing name config w.adds (w.add config) := by
  rw [UnraidWorld.add, h]
  exact ⟨by simp, by simp, rfl⟩

/-- The new container is added and brought up; when that fails, it was the only one added. -/
theorem triple_swapContainer {config : JsValue} (hname : containerName config = some name)
    (hturns : 31 ≤ turns) :
    Triple (UnraidStep host mayReject) (Halted name) (swapContainer turns (.str name) config)
      (SeenRunning (Standing name config 0) (.str name)) (GivenUp fun w => w.adds = 1) := by
  apply triple_bind (R := fun _ => Standing name config 0)
  · apply triple_call (q := .addContainer config)
    · rintro w w' a v hw hstep hanswer
      change a = .ok v at hanswer
      subst hanswer
      obtain rfl : w' = w.add config := hstep
      exact hw.adds ▸ standing_add hname
    · rintro w w' a e hw hstep hanswer
      change a = .error e at hanswer
      subst hanswer
      obtain ⟨_, rfl | rfl⟩ := hstep
      · exact ⟨(hw.adds ▸ standing_add hname : Standing name config 0 _).adds, by simp⟩
      · exact ⟨congrArg (·+1) hw.adds, by simp⟩
  · intro added
    apply triple_bind (R := fun _ => Standing name config 0)
    · apply triple_call (q := .startContainer (.str name))
      · rintro w w' a v hw hstep hanswer
        change a = .ok v at hanswer
        subst hanswer
        obtain ⟨up, rfl⟩ : ∃ up, w' = w.start name up := hstep
        exact standing_start hw
      · rintro w w' a e hw hstep hanswer
        change a = .error e at hanswer
        subst hanswer
        obtain ⟨_, ⟨up, rfl⟩ | rfl⟩ := hstep
        · exact ⟨hw.adds, by simp⟩
        · exact ⟨hw.adds, by simp⟩
    · intro started
      refine (triple_pollForRunning steady_standing hturns).weaken (fun _ h => h) (fun _ _ h => h) ?_
      rintro e w ⟨hw, he⟩
      exact ⟨hw.adds, he⟩

/-! ### The rollback -/

/-- Whatever container has the name now is the one of the rollback. -/
def Readded (name : JsString) (config : JsValue) (w : UnraidWorld) : Prop :=
  ∀ c, w.containers name = some c →
    c.config = config ∧ containerName config = some name ∧ w.addedBy name = some 1

/-- The configuration is back and runs. -/
def Restored (name : JsString) (config : JsValue) (w : UnraidWorld) : Prop :=
  Readded name config w ∧ (w.containers name).any Container.running = true

theorem readded_of_config {config : JsValue} {w w' : UnraidWorld}
    (hcontainers : (w'.containers name).map Container.config = (w.containers name).map Container.config)
    (hadded : w'.addedBy = w.addedBy) (h : Readded name config w) : Readded name config w' := by
  intro c' hc'
  rw [hc'] at hcontainers
  cases hc : w.containers name with
  | none =>
    rw [hc] at hcontainers
    cases hcontainers
  | some c =>
    rw [hc] at hcontainers
    obtain ⟨hconfig, hrest⟩ := h c hc
    have hsame : c'.config = c.config := Option.some.inj hcontainers
    exact ⟨hsame.trans hconfig, hadded ▸ hrest⟩

theorem steady_readded {config : JsValue} : Steady (Readded name config) where
  clock _ _ h := h
  waits _ _ _ h hwaits := readded_of_config (Waits.config hwaits) hwaits.addedBy h

theorem readded_add {config : JsValue} {w : UnraidWorld} (hnone : w.containers name = none)
    (hadds : w.adds = 1) : Readded name config (w.add config) := by
  intro c hc
  rw [UnraidWorld.add] at hc ⊢
  cases hconfig : containerName config with
  | none =>
    rw [hconfig] at hc
    rw [show _ = _ from hnone] at hc
    cases hc
  | some other =>
    rw [hconfig] at hc
    by_cases hother : name = other
    · subst hother
      have hself : some (⟨config, false, false⟩ : Container) = some c := by
        simpa using hc
      obtain rfl := Option.some.inj hself
      exact ⟨rfl, rfl, by simp [hadds]⟩
    · have hkept : w.containers name = some c := by
        simpa [Function.update_of_ne hother] using hc
      rw [hnone] at hkept
      cases hkept

/-- What is restored has the captured configuration and runs; the rollback may throw. -/
theorem triple_restoreContainer {config : JsValue} (hturns : 31 ≤ turns) :
    Triple (UnraidStep host mayReject) (fun w => w.adds = 1)
      (restoreContainer turns (.str name) config) (fun _ => Restored name config)
      fun e _ => e ≠ .polling := by
  apply triple_bind (R := fun _ w => w.adds = 1)
  · apply triple_call (q := .stopContainer (.str name))
    · rintro w w' a v hw hstep hanswer
      change a = .ok v at hanswer
      subst hanswer
      obtain rfl : w' = w.stop name := hstep
      exact hw
    · exact fun _ _ _ _ _ _ _ => by simp
  · intro stopped
    apply triple_bind (R := fun _ w => w.containers name = none ∧ w.adds = 1)
    · apply triple_call (q := .removeContainer (.str name))
      · rintro w w' a v hw hstep hanswer
        change a = .ok v at hanswer
        subst hanswer
        obtain rfl : w' = w.remove name := hstep
        refine ⟨?_, hw⟩
        rw [UnraidWorld.remove, UnraidWorld.containers_alter]
        cases w.containers name <;> rfl
      · exact fun _ _ _ _ _ _ _ => by simp
    · intro removed
      apply triple_bind (R := fun _ => Readded name config)
      · apply triple_call (q := .addContainer config)
        · rintro w w' a v hw hstep hanswer
          change a = .ok v at hanswer
          subst hanswer
          obtain rfl : w' = w.add config := hstep
          exact readded_add hw.1 hw.2
        · exact fun _ _ _ _ _ _ _ => by simp
      · intro added
        apply triple_bind (R := fun _ => Readded name config)
        · apply triple_call (q := .startContainer (.str name))
          · rintro w w' a v hw hstep hanswer
            change a = .ok v at hanswer
            subst hanswer
            obtain ⟨up, rfl⟩ : ∃ up, w' = w.start name up := hstep
            refine readded_of_config (w := w) ?_ rfl hw
            rw [UnraidWorld.start, UnraidWorld.containers_alter]
            cases w.containers name <;> rfl
          · exact fun _ _ _ _ _ _ _ => by simp
        · intro started
          refine (triple_pollForRunning steady_readded hturns).weaken (fun _ h => h) ?_ ?_
          · exact fun _ _ h => h
          · exact fun _ _ h => h.2

theorem triple_unraidAttemptRollback {config : JsValue} (hturns : 31 ≤ turns) :
    Triple (UnraidStep host mayReject) (fun w => w.adds = 1)
      (unraidAttemptRollback turns (.str name) config)
      (fun result w => result.success = true → Restored name config w)
      fun e w => e ≠ .polling ∧ Restored name config w := by
  apply triple_bind (R := fun failure w => failure = none → Restored name config w)
  · refine triple_failureOf (F := fun e _ => e ≠ .polling) ?_ ?_ ?_
    · exact (triple_restoreContainer hturns).weaken (fun _ h => h) (fun _ _ h _ => h) fun _ _ h => h
    · exact fun w h => absurd rfl h
    · exact fun e w _ hnone => by cases hnone
  · intro failure
    cases failure with
    | some message => exact triple_done fun w _ hsuccess => by cases hsuccess
    | none =>
      apply triple_bind (R := fun _ => Restored name config)
      · apply triple_templateOf
        · exact fun w hw => hw rfl
        · exact fun w hw => ⟨by simp, hw rfl⟩
      · exact fun image => triple_done fun w hw _ => hw

theorem Restored.kept {config : JsValue} {c : Container} {w : UnraidWorld}
    (h : Restored name config w) (hcurrent : containerName config = some name → config = c.config) :
    ContainerKept c name w := by
  obtain ⟨hreadded, hrunning⟩ := h
  cases hc : w.containers name with
  | none =>
    rw [hc] at hrunning
    cases hrunning
  | some c' =>
    rw [hc] at hrunning
    obtain ⟨hconfig, hname, hadded⟩ := hreadded c' hc
    refine ⟨c', hc, hconfig.trans (hcurrent hname), fun _ => hrunning, ?_⟩
    rw [hadded]
    simp

/-- What a swap that fails comes to. -/
theorem triple_swapFailed (hsafe : ∀ c, before = some c → SwapSafe host mayReject artifact name c)
    (hturns : 31 ≤ turns) {Q : Unit → UnraidWorld → Prop} (e : DeployFailure) :
    Triple (UnraidStep host mayReject) (fun w => w.adds = 1)
      (swapFailed turns (.str name) (previousConfigOf artifact) e) Q (Excused before name) := by
  rw [swapFailed]
  split_ifs with hnullish
  · -- there is nothing to roll back to, and there was no container
    apply triple_fail
    intro w _
    refine ⟨by simp, Or.inl ?_⟩
    intro c hc
    have hcaptured := (hsafe c hc).captured
    rw [hnullish] at hcaptured
    cases hcaptured
  · apply triple_bind (R := fun (result : RollbackResult) w =>
      result.success = true → Restored name (previousConfigOf artifact) w)
    · refine (triple_unraidAttemptRollback hturns).weaken (fun _ h => h) (fun _ _ h => h) ?_
      rintro e w ⟨he, hrestored⟩
      exact ⟨he, Or.inl fun c hc => hrestored.kept (hsafe c hc).current⟩
    · intro rollback
      apply triple_fail
      intro w hw
      refine ⟨by simp, ?_⟩
      by_cases hsuccess : rollback.success = true
      · exact Or.inl fun c hc => (hw hsuccess).kept (hsafe c hc).current
      · rw [Bool.not_eq_true] at hsuccess
        refine Or.inr ⟨rfl, ?_⟩
        rw [hsuccess]
        rfl

/-! ### The record -/

/-- The artifact is the result of a build on this host, whatever was answered. -/
def BuiltBy (host : DeployHost) (artifact : BuildArtifact) : Prop :=
  ∃ ctx log, Talks anyAnswer (unraidBuild host ctx) log (.ok artifact)

/-- What a required text of the schema is in validated parameters. -/
theorem validated_text {schema : List (JsString × ParamSchema)} {rawParams : Fields} {k : JsString}
    {format : ParamFormat} (hvalid : validateParameters rawParams schema = .ok params)
    (hnodup : (schema.map Prod.fst).Nodup) (hk : (k, requiredText format) ∈ schema) :
    ∃ s, getOwn k params = .str s := by
  obtain ⟨s, _, hkept, _⟩ := checkOne_requiredText (getOwn_validated hvalid hnodup hk)
  exact ⟨s, hkept⟩

theorem builtBy_texts (h : BuiltBy host artifact) : ∃ image digest,
    getOwn (js "image_uri") artifact.metadata = .str image ∧
      getOwn (js "digest") artifact.metadata = .str digest := by
  obtain ⟨ctx, log, hrun⟩ := h
  have hreturns : Returns anyAnswer (fun artifact : BuildArtifact => ∃ image digest,
      getOwn (js "image_uri") artifact.metadata = .str image ∧
        getOwn (js "digest") artifact.metadata = .str digest) (unraidBuild host ctx) := by
    refine returns_check fun params hvalid => ?_
    have hschema : (js "image_uri", requiredText .shellSafeArg) ∈ unraidSchema := by
      simp only [unraidSchema, List.mem_cons, true_or, or_true]
    obtain ⟨image, himage⟩ := validated_text hvalid (by decide) hschema
    refine returns_bind fun client => returns_bind fun pulled => ?_
    obtain ⟨digest, size⟩ := pulled
    refine returns_bind fun inspect => returns_done ?_
    exact ⟨image, digest, himage, rfl⟩
  exact hreturns log artifact hrun

theorem encode_text {v : JsValue} (h : ∃ s, v = .str s) : ∃ t, encode v = .ok t := by
  obtain ⟨s, rfl⟩ := h
  exact ⟨_, rfl⟩

/-- An optional text of the schema is a text or `undefined` in validated parameters. -/
theorem validated_optional {schema : List (JsString × ParamSchema)} {rawParams : Fields}
    {k fallback : JsString} (hvalid : validateParameters rawParams schema = .ok params)
    (hnodup : (schema.map Prod.fst).Nodup) (hk : (k, optionalText none) ∈ schema) :
    ∃ s, (getOwn k params).orElse (.str fallback) = .str s := by
  have hkept := getOwn_validated hvalid hnodup hk
  rw [optionalText, checkOne, givenOr] at hkept
  cases hraw : getOwn k rawParams with
  | undefined =>
    rw [hraw] at hkept
    rw [← Except.ok.inj hkept]
    exact ⟨fallback, rfl⟩
  | null =>
    rw [hraw] at hkept
    rw [← Except.ok.inj hkept]
    exact ⟨fallback, rfl⟩
  | str s =>
    rw [hraw] at hkept
    rw [← Except.ok.inj hkept]
    exact ⟨s, rfl⟩
  | _ =>
    rw [hraw] at hkept
    cases hkept

/-- The texts among the parameters of a deploy. -/
structure DeployTexts (params : Fields) (artifact : BuildArtifact) (name : JsString) : Prop where
  hostId : ∃ s, getOwn (js "host_id") params = .str s
  name : getOwn (js "container_name") params = .str name
  image : ∃ s, getOwn (js "image_uri") artifact.metadata = .str s
  digest : ∃ s, getOwn (js "digest") artifact.metadata = .str s

/-- What the backend returns can be signed when what it keeps can. -/
theorem returned_signs {signed : Signed} {payload : DeploymentRecordPayload} {startedAt : JsString}
    {stateful : Bool} {platform : JsValue} (htexts : DeployTexts params artifact name)
    (hplatform : ∃ s, platform = .str s)
    (hsign : signPayload host.toHmacHost (keptRecord artifact name) = .ok signed)
    (hpayload : payload.details = unraidDetails params artifact.metadata (previousConfigOf artifact)
      startedAt stateful platform) (message : JsString) :
    signDeploymentRecord host payload ≠ .error message := by
  obtain ⟨text, key, htext, hkey, _⟩ := signPayload_iff.mp hsign
  rw [keptRecord, encode_ofJs] at htext
  have hconfig : ∃ t, encode (previousConfigOf artifact) = .ok t :=
    encode_obj_ok.mp ⟨text, htext⟩ (js "config", previousConfigOf artifact) (by simp)
  have hstr (s : JsString) : ∃ t, encode (.str s) = .ok t := ⟨_, rfl⟩
  have hbool (b : Bool) : ∃ t, encode (.bool b) = .ok t := by
    cases b <;> exact ⟨_, rfl⟩
  have hdetails : ∃ t, encode (.obj payload.details) = .ok t := by
    apply encode_obj_ok.mpr
    rw [hpayload, unraidDetails, List.forall_mem_append]
    constructor
    · simp only [List.forall_mem_cons, List.not_mem_nil, false_imp_iff, implies_true, and_true]
      exact ⟨encode_text htexts.hostId, encode_text ⟨_, htexts.name⟩, encode_text htexts.image,
        encode_text htexts.digest, hconfig, hstr _⟩
    · cases stateful with
      | true => exact List.forall_mem_singleton.mpr (encode_text hplatform)
      | false => exact fun f hf => absurd hf List.not_mem_nil
  have hfields : ∃ t, encode (.obj payload.fields) = .ok t := by
    apply encode_obj_ok.mpr
    rw [DeploymentRecordPayload.fields, List.forall_mem_append, List.forall_mem_append]
    refine ⟨⟨?_, ?_⟩, ?_⟩
    · simp only [List.forall_mem_cons, List.not_mem_nil, false_imp_iff, implies_true, and_true]
      exact ⟨hstr _, hstr _, hstr _, hstr _, hstr _⟩
    · cases payload.stateful with
      | none => exact fun f hf => absurd hf List.not_mem_nil
      | some b => exact List.forall_mem_singleton.mpr (hbool b)
    · simp only [List.forall_mem_cons, List.not_mem_nil, false_imp_iff, implies_true, and_true]
      exact ⟨hdetails, hstr _⟩
  obtain ⟨returned, hreturned⟩ := hfields
  rw [signDeploymentRecord_iff.mpr ⟨returned, key, hreturned, hkey, rfl⟩]
  simp

/-- After the swap, a deploy in whose way nothing stands is recorded. -/
theorem triple_unraidRecord (hsafe : ∀ c, before = some c → SwapSafe host mayReject artifact name c)
    (htexts : DeployTexts params artifact name) {env : JsString} {stateful : Bool}
    {platform : JsValue} (hplatform : ∃ s, platform = .str s) :
    Triple (UnraidStep host mayReject) (SwappedIn params artifact name)
      (unraidRecord host artifact env params (previousConfigOf artifact) stateful platform)
      (fun _ w => SwappedIn params artifact name w ∧ RecordWritten host artifact name w)
      (Excused before name) := by
  have hname : paramText params (js "container_name") = name := by
    rw [paramText, htexts.name]
    rfl
  -- what fails from here on cannot fail when there was a container
  have hexcused {e : DeployFailure} {w : UnraidWorld}
      (hfails : Recordable host mayReject artifact name → False) :
      Excused before name (.thrown e) w :=
    ⟨by simp, Or.inl fun c hc => (hfails (hsafe c hc).record).elim⟩
  apply triple_bind (R := fun _ => SwappedIn params artifact name)
  · apply triple_bind (R := fun t w => SwappedIn params artifact name w ∧
      ∃ text, host.isoString t = .ok text)
    · apply triple_now
      exact fun w t hw _ hdate => ⟨⟨hw.running, hw.added⟩, hdate⟩
    · intro t
      apply triple_orThrow
      · exact fun text w hw _ => hw.1
      · rintro message w ⟨_, text, htext⟩ herror
        rw [htext] at herror
        cases herror
  intro startedAt
  apply triple_bind (R := fun _ => SwappedIn params artifact name)
  · apply triple_ask
    intro id
    apply triple_done
    rintro w' ⟨w, hw, rfl⟩
    exact hw
  intro id
  apply triple_bind (R := fun path w => SwappedIn params artifact name w ∧
    unraidRecordPath host name = .ok path)
  · rw [hname]
    apply triple_orThrow
    · exact fun path w hw hpath => ⟨hw, hpath⟩
    · rintro message w hw herror
      apply hexcused
      rintro ⟨path, signed, hpath, _⟩
      rw [hpath] at herror
      cases herror
  intro path
  apply triple_bind (R := fun _ w => SwappedIn params artifact name w ∧
    RecordWritten host artifact name w)
  · rw [htexts.name]
    apply triple_bind (R := fun signed w => (SwappedIn params artifact name w ∧
      unraidRecordPath host name = .ok path) ∧
        signPayload host.toHmacHost (keptRecord artifact name) = .ok signed)
    · apply triple_orThrow
      · exact fun signed w hw hsigned => ⟨hw, hsigned⟩
      · rintro message w hw herror
        apply hexcused
        rintro ⟨_, signed, _, hsigned, _⟩
        cases hsigned.symm.trans herror
    · intro signed
      apply triple_call (q := .writeRecord path signed)
      · rintro w w' a v ⟨⟨hw, hpath⟩, hsigned⟩ hstep hanswer
        change a = .ok v at hanswer
        subst hanswer
        obtain rfl : w' = w.write path signed := hstep
        exact ⟨⟨hw.running, hw.added⟩, path, signed, hpath, hsigned, Function.update_self ..⟩
      · rintro w w' a e ⟨⟨hw, hpath⟩, hsigned⟩ hstep hanswer
        change a = .error e at hanswer
        subst hanswer
        obtain ⟨hreject, _⟩ := hstep
        apply hexcused
        rintro ⟨path', signed', hpath', hsigned', haccepts⟩
        rw [hpath] at hpath'
        rw [hsigned] at hsigned'
        obtain rfl := Except.ok.inj hpath'
        obtain rfl := Except.ok.inj hsigned'
        exact haccepts hreject
  intro written
  apply triple_orThrow
  · exact fun record w hw _ => hw
  · rintro message w ⟨_, _, _, _, hsigned, _⟩ herror
    exact absurd herror (returned_signs htexts hplatform hsigned rfl message)

/-! ### The whole deploy -/

theorem containerName_payload (htexts : DeployTexts params artifact name) (image : JsString) :
    containerName (containerPayload params image) = some name := by
  have hproperty : property (js "name") (containerPayload params image) = .str name := htexts.name
  rw [containerName, hproperty]

theorem SeenRunning.swappedIn {w : UnraidWorld}
    (h : SeenRunning (Standing name (containerPayload params (deployedImage artifact)) 0)
      (.str name) () w) : SwappedIn params artifact name w := by
  obtain ⟨hstanding, hrunning⟩ := h
  have hcontainer := hstanding.container
  change (w.containers name).any Container.running = true at hrunning
  cases hc : w.containers name with
  | none =>
    rw [hc] at hrunning
    cases hrunning
  | some c =>
    rw [hc] at hrunning hcontainer
    exact ⟨⟨c, hc, Option.some.inj hcontainer, hrunning⟩, hstanding.addedBy⟩

theorem triple_unraidRelease (hsafe : ∀ c, before = some c → SwapSafe host mayReject artifact name c)
    (htexts : DeployTexts params artifact name) {env : JsString} {stateful : Bool}
    {platform : JsValue} (hplatform : ∃ s, platform = .str s) (hturns : 31 ≤ turns) :
    Triple (UnraidStep host mayReject) (Untouched before name)
      (unraidRelease host turns artifact env params stateful platform)
      (fun _ w => SwappedIn params artifact name w ∧ RecordWritten host artifact name w)
      (Excused before name) := by
  obtain ⟨image, himage⟩ := htexts.image
  obtain ⟨digest, hdigest⟩ := htexts.digest
  have hdeployed : image ++ js "@" ++ digest = deployedImage artifact := by
    rw [deployedImage, himage, hdigest]
    rfl
  rw [unraidRelease, htexts.name, himage, hdigest]
  apply triple_bind (R := fun _ => Untouched before name)
  · apply triple_call (q := .inspectContainer (.str name))
    · rintro w w' a v hw hstep hanswer
      change a = .ok v at hanswer
      subst hanswer
      obtain ⟨_, rfl⟩ := hstep
      exact hw
    · rintro w w' a e hw hstep hanswer
      change a = .error e at hanswer
      subst hanswer
      obtain rfl : w' = w := hstep
      exact hw.excused
  intro existing
  apply triple_bind (triple_stopExisting hsafe)
  intro stopped
  change Triple _ _ ((Deploy.catching (swapContainer turns (.str name)
    (containerPayload params (image ++ js "@" ++ digest)))
    (swapFailed turns (.str name) (previousConfigOf artifact))).bind fun _ =>
      unraidRecord host artifact env params (previousConfigOf artifact) stateful platform) _ _
  rw [hdeployed]
  have hswap := @triple_swapContainer host mayReject name turns _
    (containerName_payload htexts (deployedImage artifact)) hturns
  apply triple_bind (R := fun _ => SwappedIn params artifact name)
  · refine triple_catching (hswap.weaken (fun _ h => h) ?_ fun _ _ h => h) ?_ ?_
    · exact fun _ w hw => hw.swappedIn
    · exact fun w hw => absurd rfl hw.2
    · intro e
      refine (triple_swapFailed hsafe hturns e).weaken ?_ (fun _ _ h => h) fun _ _ h => h
      exact fun w hw => hw.1
  intro swapped
  exact triple_unraidRecord hsafe htexts hplatform

theorem triple_checkMounts (mounts : List JsValue) :
    Triple (UnraidStep host mayReject) (Untouched before name) (checkMounts mounts)
      (fun _ => Untouched before name) (Excused before name) := by
  rw [checkMounts]
  split_ifs
  · exact triple_done fun _ h => h
  · apply triple_bind (R := fun _ => Untouched before name)
    · apply triple_call (q := .getShares)
      · rintro w w' a v hw hstep _
        obtain rfl : w' = w := hstep
        exact hw
      · rintro w w' a e hw hstep _
        obtain rfl : w' = w := hstep
        exact hw.excused
    · intro shares
      cases mounts.find? fun m => !shares.any (underShare m) with
      | none => exact triple_done fun _ h => h
      | some mount => exact triple_fail fun _ h => h.excused

theorem triple_requireBackupOf {config : StatefulDeployConfig} {stateful : Bool}
    {platform : JsValue} {target : JsString} :
    Triple (UnraidStep host mayReject) (Untouched before name)
      (requireBackupOf config stateful platform target) (fun _ => Untouched before name)
      (Excused before name) := by
  rw [requireBackupOf]
  split_ifs
  · apply triple_bind (R := fun _ => Untouched before name)
    · apply triple_call (q := .verifyBackup _)
      · rintro w w' a v hw hstep _
        obtain rfl : w' = w := hstep
        exact hw
      · rintro w w' a e hw hstep _
        obtain rfl : w' = w := hstep
        exact hw.excused
    · exact fun _ => triple_done fun _ h => h
  · exact triple_done fun _ h => h

theorem deployTexts_of {rawParams : Fields}
    (hvalid : validateParameters rawParams unraidSchema = .ok params)
    (hname : getOwn (js "container_name") params = .str name) (hbuilt : BuiltBy host artifact) :
    DeployTexts params artifact name := by
  have hschema : (js "host_id", requiredText .identifier) ∈ unraidSchema := by
    simp only [unraidSchema, List.mem_cons, true_or]
  obtain ⟨image, digest, himage, hdigest⟩ := builtBy_texts hbuilt
  exact ⟨validated_text hvalid (by decide) hschema, hname, ⟨image, himage⟩, ⟨digest, hdigest⟩⟩

theorem platform_text {rawParams : Fields} (fallback : JsString)
    (hvalid : validateParameters rawParams unraidSchema = .ok params) :
    ∃ s, (getOwn (js "backup_platform") params).orElse (.str fallback) = .str s := by
  have hschema : (js "backup_platform", optionalText none) ∈ unraidSchema := by
    simp only [unraidSchema, List.mem_cons, true_or, or_true]
  exact validated_optional hvalid (by decide) hschema

/-- What `deploy` does with parameters that are valid. -/
theorem unraidDeploy_valid {rawParams : Fields} {config : StatefulDeployConfig} {env : JsString}
    (hvalid : validateParameters rawParams unraidSchema = .ok params) :
    ∃ stateful target, unraidDeploy host config turns artifact env rawParams =
      (Deploy.getClient (getOwn (js "host_id") params)).bind fun _ =>
        (checkMounts (arrayParam params (js "storage_mounts"))).bind fun _ =>
          (requireBackupOf config stateful
            ((getOwn (js "backup_platform") params).orElse (.str (js "unraid"))) target).bind fun _ =>
            unraidRelease host turns artifact env params stateful
              ((getOwn (js "backup_platform") params).orElse (.str (js "unraid"))) := by
  refine ⟨isStatefulTarget [(js "role", getOwn (js "role") params),
    (js "storage_mounts", .arr (arrayParam params (js "storage_mounts")))],
    paramText params (js "container_name"), ?_⟩
  rw [unraidDeploy, hvalid]
  rfl

theorem triple_unraidDeploy {rawParams : Fields} {config : StatefulDeployConfig} {env : JsString}
    (hsafe : ∀ c, before = some c → SwapSafe host mayReject artifact name c)
    (hvalid : validateParameters rawParams unraidSchema = .ok params)
    (hname : getOwn (js "container_name") params = .str name) (hbuilt : BuiltBy host artifact)
    (hturns : 31 ≤ turns) :
    Triple (UnraidStep host mayReject) (Untouched before name)
      (unraidDeploy host config turns artifact env rawParams)
      (fun _ w => SwappedIn params artifact name w ∧ RecordWritten host artifact name w)
      (Excused before name) := by
  obtain ⟨stateful, target, hdeploy⟩ := unraidDeploy_valid hvalid
  rw [hdeploy]
  apply triple_bind (R := fun _ => Untouched before name)
  · apply triple_call (q := .getClient _)
    · rintro w w' a v hw hstep _
      obtain rfl : w' = w := hstep
      exact hw
    · rintro w w' a e hw hstep _
      obtain rfl : w' = w := hstep
      exact hw.excused
  intro client
  apply triple_bind (triple_checkMounts _)
  intro mounts
  apply triple_bind triple_requireBackupOf
  intro gate
  exact triple_unraidRelease hsafe (deployTexts_of hvalid hname hbuilt) (platform_text _ hvalid) hturns

end Homelab
