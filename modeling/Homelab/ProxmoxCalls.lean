import Homelab.DeployGate
import Homelab.DeployRecords
import Homelab.ProxmoxHost

/-! What the builds, deploys and rollbacks of the Proxmox backend do to the nodes. -/
namespace Homelab
open Js Path Dialogue LiveValue

variable {host : DeployHost} {artifact : BuildArtifact} {params rawParams : Fields}
  {vmid : JsNumber} {w w' : ProxmoxWorld}

/-! ### Parameters -/

/-- What validation makes sure of. -/
structure ProxmoxTexts (params : Fields) : Prop where
  node : ∃ s, getOwn (js "node_id") params = .str s
  kind : ∃ s, getOwn (js "workload_kind") params = .str s
  hostname : ∃ s, getOwn (js "hostname") params = .str s
  image : ∃ s, getOwn (js "image_uri") params = .str s
  vmid : ∃ x, getOwn (js "vmid") params = .num x

theorem proxmoxTexts_of (hvalid : validateParameters rawParams proxmoxSchema = .ok params) :
    ProxmoxTexts params := by
  have hkept {k : JsString} {own : ParamSchema} (hk : (k, own) ∈ proxmoxSchema) :=
    getOwn_validated hvalid (by decide) hk
  constructor
  · exact checkOne_string (hkept (List.mem_of_getElem? (i := 0) rfl))
  · exact checkOne_string (hkept (List.mem_of_getElem? (i := 1) rfl))
  · exact checkOne_string (hkept (List.mem_of_getElem? (i := 6) rfl))
  · exact checkOne_string (hkept (List.mem_of_getElem? (i := 3) rfl))
  · exact checkOne_number (hkept (List.mem_of_getElem? (i := 2) rfl))

/-- A vmid that is accepted is a decimal, the one that was given. -/
theorem checkedVmid_fin (htexts : ProxmoxTexts params) (h : checkedVmid params = .ok vmid) :
    getOwn (js "vmid") params = .num vmid ∧ ∃ d, vmid = .fin d := by
  obtain ⟨x, hx⟩ := htexts.vmid
  rw [checkedVmid, hx] at h
  obtain ⟨y, hparse, hrange⟩ := bind_ok_iff.mp h
  rw [parseVmid] at hparse
  split_ifs at hparse with hintegral
  · obtain rfl := Except.ok.inj hparse
    split_ifs at hrange
    · cases hrange
    · obtain rfl := Except.ok.inj hrange
      refine ⟨hx, ?_⟩
      cases x with
      | fin d => exact ⟨d, rfl⟩
      | nan => cases hintegral
      | inf negative => cases hintegral
  · cases hparse

/-! ### What a build finds -/

/-- A vmid that is recorded for the vmid `vmid`, if any. -/
def SameVmid (vmid : JsNumber) (v : JsValue) : Prop :=
  v = .null ∨ ∃ x, v = .num x ∧ x.toText = vmid.toText

theorem triple_recordedVmid {E : DeployStop → ProxmoxWorld → Prop} :
    Triple ProxmoxStep (FilesKept host) (recordedVmid host vmid) (fun v _ => SameVmid vmid v) E := by
  refine triple_catching (F := fun e _ => e ≠ .polling) ?_ (fun w h => absurd rfl h) ?_
  · apply triple_bind (R := fun path w => FilesKept host w ∧ proxmoxRecordPath host vmid = .ok path)
    · apply triple_orThrow
      · exact fun path w hw hpath => ⟨hw, hpath⟩
      · exact fun _ _ _ _ => by simp
    intro path
    apply triple_bind (R := fun file _ => ∀ raw, file = some raw →
      ∃ x, property (js "vmid") (property (js "payload") raw) = .num x ∧ x.toText = vmid.toText)
    · apply triple_call (q := .readRecord path)
      · rintro w w' a file ⟨hfiles, hpath⟩ hstep hanswer
        change a = .ok file at hanswer
        subst hanswer
        exact fun raw hraw => readBack_vmid hfiles hpath hstep.1 hraw
      · exact fun _ _ _ _ _ _ _ => by simp
    intro file
    apply triple_bind (R := fun payload _ => ∀ record, payload = some record →
      ∃ x, property (js "vmid") record = .num x ∧ x.toText = vmid.toText)
    · apply triple_orThrow
      · intro payload w hfile hread record hrecord
        subst hrecord
        cases file with
        | none =>
          change Except.ok none = _ at hread
          cases hread
        | some raw =>
          change (if _ then _ else _) = _ at hread
          split_ifs at hread
          obtain rfl := Option.some.inj (Except.ok.inj hread)
          exact hfile raw rfl
      · exact fun _ _ _ _ => by simp
    intro payload
    cases payload with
    | none => exact triple_done fun _ _ => Or.inl rfl
    | some record =>
      have hread : Triple ProxmoxStep (fun _ => ∀ record', some record = some record' →
          ∃ x, property (js "vmid") record' = .num x ∧ x.toText = vmid.toText)
          (Deploy.orThrow (readProperty record (js "vmid"))) (fun v _ => SameVmid vmid v)
          fun e _ => e ≠ .polling := by
        apply triple_orThrow
        · intro v w hrecord hv
          obtain ⟨x, hx, htext⟩ := hrecord record rfl
          rw [readProperty] at hv
          rw [property] at hx
          cases hget : record.get? (js "vmid") with
          | none =>
            rw [hget] at hv
            cases hv
          | some found =>
            rw [hget] at hv hx
            exact Or.inr ⟨x, (Except.ok.inj hv).symm.trans hx, htext⟩
        · exact fun _ _ _ _ => by simp
      cases record with
      | null => exact triple_done fun _ _ => Or.inl rfl
      | _ => exact hread
  · exact fun e => triple_done fun _ _ => Or.inl rfl

/-! ### What the calls ask -/

section Asks

variable {P : DeployAsk → Prop} {opts : CreateOpts} {kind v : JsValue} {vmidText env : JsString}
  {deadline turns : ℕ} {ip : JsValue} {ctx : BuildContext} {record : DeploymentRecord}

theorem asks_runBuildCommand {words : Except DeployError (List JsString)}
    (hexec : ∀ ws, P (.exec ws)) : (runBuildCommand words).Asks P := by
  refine asks_bind (asks_check _) fun ws => asks_bind (asks_call (hexec ws)) fun result => ?_
  split_ifs <;> trivial

theorem asks_createInstance (hexec : ∀ ws, P (.exec ws)) : (createInstance params vmid).Asks P := by
  rw [createInstance]
  split_ifs
  · exact asks_runBuildCommand hexec
  · exact asks_bind (asks_runBuildCommand hexec) fun _ => asks_runBuildCommand hexec

theorem asks_awaitInstance (hnow : P .now) (hsleep : ∀ ms, P (.sleep ms))
    (hstatus : P (.exec [toolOf kind, js "status", vmidText])) :
    (awaitInstance kind vmidText deadline turns).Asks P := by
  induction turns with
  | zero => trivial
  | succ turns ih =>
    refine asks_bind (asks_put hnow) fun t => ?_
    split_ifs with hlate
    · have hrunning : (isRunning kind vmidText).Asks P :=
        asks_bind (asks_call hstatus) fun _ => trivial
      refine asks_bind hrunning fun running => ?_
      split_ifs with hup
      · trivial
      · exact asks_bind (asks_put (hsleep 2000)) fun _ => ih
    · trivial

theorem asks_pollInstance (hnow : P .now) (hsleep : ∀ ms, P (.sleep ms))
    (hstatus : ∀ text, P (.exec [toolOf kind, js "status", text])) :
    (pollInstance turns kind v).Asks P :=
  asks_bind (asks_put hnow) fun _ => asks_bind (asks_templateOf v) fun text =>
    asks_awaitInstance hnow hsleep (hstatus text)

theorem asks_resolveAssignedIp (hpct : ∀ rest, P (.exec (js "pct" :: js "exec" :: rest)))
    (hqm : ∀ rest, P (.exec (js "qm" :: js "guest" :: rest))) :
    (resolveAssignedIp kind vmidText).Asks P := by
  rw [resolveAssignedIp]
  split_ifs
  · refine asks_bind (asks_call (hpct _)) fun result => ?_
    split_ifs with hexit
    · trivial
    · exact asks_bind (asks_orThrow _) fun _ => trivial
  · refine asks_bind (asks_call (hqm _)) fun result => ?_
    split_ifs with hexit <;> trivial

theorem asks_proxmoxRecord (hnow : P .now) (hid : P .generateId)
    (hwrite : ∀ path signed, proxmoxRecordPath host vmid = .ok path →
      signPayload host.toHmacHost (.ofJs (.obj (proxmoxKept params vmid))) = .ok signed →
        P (.writeRecord path signed)) :
    (proxmoxRecord host artifact env params vmid ip).Asks P := by
  refine asks_bind (asks_currentIso hnow) fun startedAt => asks_bind (asks_put hid) fun id => ?_
  refine asks_orThrow_bind fun path hpath => ?_
  have hpersist : (persistRecord host path (proxmoxKept params vmid)).Asks P :=
    asks_orThrow_bind fun signed hsigned => asks_call (hwrite path signed hpath hsigned)
  exact asks_bind hpersist fun _ => asks_orThrow _

/-- A build writes no record. -/
theorem build_writes : (proxmoxBuild host ctx).Asks (WritesKept host) := by
  refine asks_bind (asks_check _) fun params => asks_bind (asks_check _) fun vmid => ?_
  refine asks_bind (asks_call trivial) fun _ => ?_
  refine asks_bind (asks_createInstance fun _ => trivial) fun _ => ?_
  have hrecorded : (recordedVmid host vmid).Asks (WritesKept host) := by
    refine asks_catching ?_ fun _ => trivial
    refine asks_bind (asks_orThrow _) fun path => asks_bind (asks_call trivial) fun file => ?_
    refine asks_bind (asks_orThrow _) fun payload => ?_
    cases payload with
    | none => trivial
    | some found =>
      cases found with
      | null => trivial
      | _ => exact asks_orThrow _
  exact asks_bind hrecorded fun _ => trivial

theorem wellOrdered_proxmoxKept (htexts : ProxmoxTexts params) :
    WellOrdered (.obj (proxmoxKept params vmid)) := by
  obtain ⟨kind, hkind⟩ := htexts.kind
  obtain ⟨hostname, hhostname⟩ := htexts.hostname
  obtain ⟨image, himage⟩ := htexts.image
  have htext (s : JsString) : WellOrdered (.str s) := rfl
  have hvmid : WellOrdered (.num vmid) := rfl
  refine wellOrdered_obj.mpr ⟨?_, ?_⟩
  · change OwnOrder [js "vmid", js "workload_kind", js "hostname", js "image_uri"]
    decide
  · simp only [proxmoxKept, hkind, hhostname, himage, List.forall_mem_cons, List.not_mem_nil,
      false_imp_iff, implies_true, htext, hvmid, and_self]

/-- A deploy writes the record of its vmid, if any. -/
theorem deploy_writes :
    (proxmoxDeploy host turns artifact env rawParams).Asks (WritesKept host) := by
  refine asks_check_bind fun params hvalid => asks_check_bind fun vmid hvmid => ?_
  have htexts := proxmoxTexts_of hvalid
  obtain ⟨_, d, rfl⟩ := checkedVmid_fin htexts hvmid
  refine asks_bind (asks_call trivial) fun _ => asks_bind (asks_call trivial) fun started => ?_
  split_ifs with hexit
  · trivial
  · have hpoll : (pollInstance turns (getOwn (js "workload_kind") params) (.num (.fin d))).Asks
        (WritesKept host) := asks_pollInstance trivial (fun _ => trivial) fun _ => trivial
    refine asks_bind hpoll fun _ => ?_
    refine asks_bind (asks_resolveAssignedIp (fun _ => trivial) fun _ => trivial) fun ip => ?_
    refine asks_proxmoxRecord trivial trivial fun path signed hpath hsigned => ?_
    exact ⟨_, d, wellOrdered_proxmoxKept htexts, List.mem_cons_self .., hpath, hsigned⟩

theorem createsNothing_verb {verb : JsString} (hverb : verb ≠ js "create") (tool : JsString)
    (rest : List JsString) : CreatesNothing (.exec (tool :: verb :: rest)) := by
  intro tool' vmid'
  cases rest with
  | nil => simp [nodeCommand]
  | cons vmid rest =>
    rw [nodeCommand, if_neg hverb]
    split_ifs <;> simp

theorem asks_pollInstance_creates : (pollInstance turns kind v).Asks CreatesNothing :=
  asks_pollInstance trivial (fun _ => trivial) fun _ => createsNothing_verb (by decide) _ _

theorem rollback_creates : (proxmoxRollback turns record).Asks CreatesNothing := by
  rw [proxmoxRollback]
  split_ifs with hnothing
  · trivial
  · refine asks_bind (asks_call trivial) fun _ => asks_bind (asks_templateOf _) fun vmid => ?_
    refine asks_bind (asks_call (createsNothing_verb (by decide) _ _)) fun stopped => ?_
    refine asks_bind (asks_templateOf _) fun previous => ?_
    refine asks_bind (asks_call (createsNothing_verb (by decide) _ _)) fun started => ?_
    dsimp only
    split_ifs with hexit
    · trivial
    · refine asks_bind (asks_failureOf asks_pollInstance_creates) fun failure => ?_
      cases failure with
      | some message => trivial
      | none => exact asks_bind (asks_templateOf _) fun _ => asks_bind (asks_templateOf _) fun _ => trivial

end Asks

/-! ### What builds and deploys return -/

theorem triple_files {α : Type} {m : Deploy α} (hm : m.Asks (WritesKept host)) :
    Triple ProxmoxStep (FilesKept host) m (fun _ => FilesKept host) fun _ => FilesKept host :=
  fun _ _ _ hfiles hrun => ⟨fun _ _ => plays_files hfiles hm hrun, fun _ _ => plays_files hfiles hm hrun⟩

/-- The predecessor that an artifact names is the vmid that it was built for. -/
def NamesItself (artifact : BuildArtifact) : Prop :=
  ∃ vmid, getOwn (js "vmid") artifact.metadata = .num vmid ∧
    SameVmid vmid (getOwn (js "previous_vmid") artifact.metadata)

theorem proxmoxArtifact_metadata (ctx : BuildContext) (previous : JsValue) :
    getOwn (js "vmid") (proxmoxArtifact host ctx params vmid previous).metadata = .num vmid ∧
      getOwn (js "previous_vmid") (proxmoxArtifact host ctx params vmid previous).metadata = previous := by
  rw [proxmoxArtifact]
  dsimp only
  split_ifs with hregistry
  · exact ⟨rfl, rfl⟩
  · exact ⟨rfl, rfl⟩

theorem triple_build (ctx : BuildContext) : Triple ProxmoxStep (FilesKept host)
    (proxmoxBuild host ctx) (fun artifact _ => NamesItself artifact) fun _ _ => True := by
  apply triple_bind (R := fun params w => FilesKept host w)
  · exact triple_check (fun _ _ hw _ => hw) fun _ _ _ _ => trivial
  intro params
  apply triple_bind (R := fun vmid w => FilesKept host w)
  · exact triple_check (fun _ _ hw _ => hw) fun _ _ _ _ => trivial
  intro vmid
  have hquiet {α : Type} {m : Deploy α} (hm : m.Asks (WritesKept host)) :
      Triple ProxmoxStep (FilesKept host) m (fun _ => FilesKept host) fun _ _ => True :=
    (triple_files hm).weaken (fun _ h => h) (fun _ _ h => h) fun _ _ _ => trivial
  refine triple_bind (hquiet (asks_call trivial)) fun _ => ?_
  refine triple_bind (hquiet (asks_createInstance fun _ => trivial)) fun _ => ?_
  refine triple_bind triple_recordedVmid fun previous => ?_
  apply triple_done
  intro w hrecorded
  obtain ⟨hvmid, hprevious⟩ := @proxmoxArtifact_metadata host params vmid ctx previous
  refine ⟨vmid, hvmid, ?_⟩
  rw [hprevious]
  exact hrecorded

/-- Where the instance of a record is. -/
def placeOf (record : DeploymentRecord) : InstancePlace :=
  ((getOwn (js "node_id") record.payload.details).coerce,
    (getOwn (js "vmid") record.payload.details).coerce)

/-- What a record says of a deploy of the artifact. -/
structure RecordsDeploy (artifact : BuildArtifact) (record : DeploymentRecord) : Prop where
  node : ∃ s, getOwn (js "node_id") record.payload.details = .str s
  vmid : ∃ x, getOwn (js "vmid") record.payload.details = .num x
  kind : ∃ s, getOwn (js "workload_kind") record.payload.details = .str s
  previous : getOwn (js "previous_vmid") record.payload.details =
    (getOwn (js "previous_vmid") artifact.metadata).orElse .null

section Deploys

variable {P : ProxmoxWorld → Prop} {tool vmidText env : JsString} {turns : ℕ} {place : InstancePlace}

/-- What only depends on which instances there are stays while none is created. -/
theorem triple_stays {α : Type} {m : Deploy α} (hP : ∀ w w', SameMade w w' → P w → P w')
    (hm : m.Asks CreatesNothing) : Triple ProxmoxStep P m (fun _ => P) fun _ _ => True :=
  fun _ _ _ hp hrun => ⟨fun _ _ => hP _ _ (plays_sameMade hm hrun) hp, fun _ _ => trivial⟩

theorem SameMade.isSome (h : SameMade w w') (hsome : (w.instances place).isSome) :
    (w'.instances place).isSome := by
  have hidentity := congrArg Option.isSome (h.instances place)
  rw [Option.isSome_map, Option.isSome_map] at hidentity
  rw [hidentity]
  exact hsome

theorem nodeCommand_start : nodeCommand [tool, js "start", vmidText] = .start tool vmidText := by
  rw [nodeCommand, if_neg (by decide), if_pos rfl]

theorem nodeCommand_stop : nodeCommand [tool, js "stop", vmidText] = .stop tool vmidText := by
  rw [nodeCommand, if_neg (by decide), if_neg (by decide), if_pos rfl]

theorem nodeCommand_status : nodeCommand [tool, js "status", vmidText] = .status tool vmidText := by
  rw [nodeCommand, if_neg (by decide), if_neg (by decide), if_neg (by decide), if_pos rfl]

/-- A command that succeeds has its effect. -/
theorem exec_effect {words : List JsString} {result : CommandResult}
    (hstep : ProxmoxStep w (.exec words) (.ok result) w') (hexit : result.exitCode = 0) :
    w.Effect (nodeCommand words) w' ∧ w.Truthful (nodeCommand words) result := by
  change if result.exitCode = 0 then _ else _ at hstep
  rw [if_pos hexit] at hstep
  exact hstep

theorem triple_proxmoxRecord {ip : JsValue} (htexts : ProxmoxTexts params)
    (hP : ∀ w w', SameMade w w' → P w → P w') : Triple ProxmoxStep P
    (proxmoxRecord host artifact env params vmid ip)
    (fun record w => RecordsDeploy artifact record ∧
      placeOf record = (paramText params (js "node_id"), vmid.toText) ∧ P w)
    fun _ _ => True := by
  refine triple_bind (triple_stays hP (asks_currentIso trivial)) fun startedAt => ?_
  refine triple_bind (triple_stays hP (asks_put trivial)) fun id => ?_
  refine triple_bind (triple_stays hP (asks_orThrow _)) fun path => ?_
  refine triple_bind (triple_stays hP (asks_persistRecord fun _ => trivial)) fun _ => ?_
  apply triple_orThrow
  · intro record w hp hsigned
    obtain ⟨_, _, _, _, rfl⟩ := signDeploymentRecord_iff.mp hsigned
    exact ⟨⟨htexts.node, ⟨vmid, rfl⟩, htexts.kind, rfl⟩, rfl, hp⟩
  · exact fun _ _ _ _ => trivial

/-- A deploy that returns a record has started the instance. -/
theorem triple_deploy : Triple ProxmoxStep (fun _ => True)
    (proxmoxDeploy host turns artifact env rawParams)
    (fun record w => RecordsDeploy artifact record ∧ (w.instances (placeOf record)).isSome)
    fun _ _ => True := by
  refine triple_check_bind (fun params hvalid => ?_) fun _ _ _ => trivial
  have htexts := proxmoxTexts_of hvalid
  refine triple_check_bind (fun vmid hvmid => ?_) fun _ _ _ => trivial
  let node := paramText params (js "node_id")
  apply triple_bind (R := fun _ w => w.connected = node)
  · apply triple_call (q := .getConnection _)
    · intro w w' a v _ hstep hanswer
      change a = .ok v at hanswer
      subst hanswer
      obtain rfl : w' = { w with connected := node } := hstep
      rfl
    · exact fun _ _ _ _ _ _ _ => trivial
  intro _
  apply triple_bind (R := fun started w => started.exitCode = 0 →
    (w.instances (node, vmid.toText)).isSome)
  · apply triple_call (q := .exec _)
    · intro w w' a started hnode hstep hanswer hexit
      change a = .ok started at hanswer
      subst hanswer
      have heffect := (exec_effect hstep hexit).1
      rw [nodeCommand_start] at heffect
      obtain ⟨⟨i, hi, _⟩, up, rfl⟩ := heffect
      rw [hnode] at hi ⊢
      rw [ProxmoxWorld.start, ProxmoxWorld.alter_self, hi]
      rfl
    · exact fun _ _ _ _ _ _ _ => trivial
  intro started
  split_ifs with hexit
  · exact triple_fail fun _ _ => trivial
  · refine Triple.weaken ?_ (fun _ hw => hw (not_not.mp hexit)) (fun _ _ h => h) fun _ _ h => h
    have hstays {w w' : ProxmoxWorld} (h : SameMade w w')
        (hsome : (w.instances (node, vmid.toText)).isSome) := h.isSome hsome
    refine triple_bind (triple_stays (fun _ _ => hstays) asks_pollInstance_creates) fun _ => ?_
    have haddress := @asks_resolveAssignedIp CreatesNothing (getOwn (js "workload_kind") params)
      vmid.toText (createsNothing_verb (by decide) _) (createsNothing_verb (by decide) _)
    refine triple_bind (triple_stays (fun _ _ => hstays) haddress) fun ip => ?_
    refine (triple_proxmoxRecord htexts fun _ _ => hstays).weaken (fun _ h => h) ?_ fun _ _ h => h
    rintro record w ⟨hrecords, hplace, hsome⟩
    rw [← hplace] at hsome
    exact ⟨hrecords, hsome⟩

end Deploys

/-! ### What rollbacks do -/

/-- Where the instance is that a rollback starts. -/
def restoredPlace (record : DeploymentRecord) : InstancePlace :=
  ((getOwn (js "node_id") record.payload.details).coerce,
    (getOwn (js "previous_vmid") record.payload.details).coerce)

/-- The tool of the kind that the record says. -/
def toolFor (record : DeploymentRecord) : JsString :=
  toolOf (getOwn (js "workload_kind") record.payload.details)

/-- What is there, if anything, has been stopped. -/
def ProxmoxWorld.Down (w : ProxmoxWorld) (place : InstancePlace) : Prop :=
  ∀ i, w.instances place = some i → i.started = false ∧ i.running = false

/-- A rollback that reports success has stopped the one instance and started the other. -/
structure RolledBack (record : DeploymentRecord) (w w' : ProxmoxWorld) : Prop where
  named : isNullish (getOwn (js "previous_vmid") record.payload.details) = false
  same : SameMade w w'
  stopped : w.Holds (placeOf record) (toolFor record)
  started : w.Holds (restoredPlace record) (toolFor record)
  runs : ∃ i, w'.instances (restoredPlace record) = some i ∧ i.running = true
  rests : restoredPlace record ≠ placeOf record →
    ∀ i, w'.instances (placeOf record) = some i → i.running = false

section Rollbacks

variable {P : ProxmoxWorld → Prop} {kind v : JsValue} {vmidText : JsString} {deadline turns : ℕ}
  {place : InstancePlace} {record : DeploymentRecord}

theorem down_stop : (w.stop place).Down place := by
  intro i hi
  rw [ProxmoxWorld.stop, ProxmoxWorld.alter_self] at hi
  obtain ⟨_, _, rfl⟩ := Option.map_eq_some_iff.mp hi
  exact ⟨rfl, rfl⟩

theorem down_start {other : InstancePlace} {up : Bool} (hne : place ≠ other) (h : w.Down place) :
    (w.start other up).Down place := by
  intro i hi
  rw [ProxmoxWorld.start, ProxmoxWorld.alter_of_ne hne] at hi
  exact h i hi

theorem down_waits {ms : ℕ} (hwaits : w.Waits ms w') (h : w.Down place) : w'.Down place := by
  intro i' hi'
  have hplace := hwaits.instances place
  rw [hi'] at hplace
  cases hi : w.instances place with
  | none =>
    rw [hi] at hplace
    cases hplace
  | some i =>
    rw [hi] at hplace
    cases hplace with
    | some hsettled =>
      obtain ⟨hstarted, hrunning⟩ := h i hi
      obtain ⟨_, _, hstarted', hrunning'⟩ := hsettled
      exact ⟨hstarted'.trans hstarted, (hrunning' hstarted).trans hrunning⟩

/-- What calls and waiting keep holds when the instance is seen to run. -/
structure KeptByPolling (P : ProxmoxWorld → Prop) : Prop where
  now : ∀ w t, P w → P { w with clock := t }
  waits : ∀ w ms w', P w → w.Waits ms w' → P w'

theorem triple_isRunning : Triple ProxmoxStep P (isRunning kind vmidText)
    (fun up w => P w ∧
      (up = true → (w.instances (w.connected, vmidText)).any Instance.running = true))
    fun _ _ => True := by
  apply triple_bind (R := fun result w => P w ∧ (result.exitCode = 0 →
    w.Truthful (.status (toolOf kind) vmidText) result))
  · apply triple_call (q := .exec _)
    · intro w w' a result hp hstep hanswer
      change a = .ok result at hanswer
      subst hanswer
      change if result.exitCode = 0 then _ else _ at hstep
      rw [nodeCommand_status] at hstep
      split_ifs at hstep with hexit
      · obtain ⟨⟨_, rfl⟩, htruthful⟩ := hstep
        exact ⟨hp, fun _ => htruthful⟩
      · -- a status that fails changes nothing, either
        have hsame : w' = w := hstep.elim id And.right
        rw [hsame]
        exact ⟨hp, fun hzero => absurd hzero hexit⟩
    · exact fun _ _ _ _ _ _ _ => trivial
  intro result
  apply triple_done
  rintro w ⟨hp, htruthful⟩
  refine ⟨hp, fun hup => ?_⟩
  obtain ⟨hexit, hnoted⟩ := Bool.and_eq_true_iff.mp hup
  exact (htruthful (eq_of_beq hexit)).mp (of_decide_eq_true hnoted)

theorem triple_awaitInstance (hP : KeptByPolling P) : Triple ProxmoxStep P
    (awaitInstance kind vmidText deadline turns)
    (fun _ w => P w ∧ (w.instances (w.connected, vmidText)).any Instance.running = true)
    fun _ _ => True := by
  induction turns with
  | zero => exact triple_fail fun _ _ => trivial
  | succ turns ih =>
    apply triple_ask
    intro (t : ℕ)
    refine Triple.weaken (P := P) ?_ ?_ (fun _ _ h => h) fun _ _ h => h
    · change Triple ProxmoxStep P (if t < deadline then _ else _) _ _
      split_ifs with hlate
      · refine triple_bind triple_isRunning fun up => ?_
        split_ifs with hup
        · exact triple_done fun w hw => ⟨hw.1, hw.2 hup⟩
        · apply triple_ask
          intro _
          refine ih.weaken ?_ (fun _ _ h => h) fun _ _ h => h
          rintro w' ⟨w, ⟨hp, _⟩, hstep⟩
          exact hP.waits w 2000 w' hp hstep
      · exact triple_fail fun _ _ => trivial
    · rintro w' ⟨w, hp, _, rfl⟩
      exact hP.now w t hp

/-- When the polling ends well, the instance runs. -/
theorem triple_pollInstance (hP : KeptByPolling P) : Triple ProxmoxStep P (pollInstance turns kind v)
    (fun _ w => P w ∧ (w.instances (w.connected, v.coerce)).any Instance.running = true)
    fun _ _ => True := by
  apply triple_ask
  intro t
  refine Triple.weaken (P := P) ?_ ?_ (fun _ _ h => h) fun _ _ h => h
  · exact triple_templateOf_bind (triple_awaitInstance hP) fun _ _ => trivial
  · rintro w' ⟨w, hp, _, rfl⟩
    exact hP.now w t hp

/-- In the midst of a rollback that began in `w₀`. -/
structure Rolling (record : DeploymentRecord) (w₀ w : ProxmoxWorld) : Prop where
  connected : w.connected = (getOwn (js "node_id") record.payload.details).coerce
  same : SameMade w₀ w

/-- After its two commands. -/
structure Restarted (record : DeploymentRecord) (stopped started : CommandResult)
    (w₀ w : ProxmoxWorld) : Prop extends Rolling record w₀ w where
  stops : stopped.exitCode = 0 → w₀.Holds (placeOf record) (toolFor record) ∧
    (placeOf record ≠ restoredPlace record → w.Down (placeOf record))
  starts : started.exitCode = 0 → w₀.Holds (restoredPlace record) (toolFor record)

theorem restarted_kept {stopped started : CommandResult} {w₀ : ProxmoxWorld} :
    KeptByPolling (Restarted record stopped started w₀) := by
  constructor
  · intro w t h
    exact ⟨⟨h.connected, h.same.instances, h.same.created⟩, h.stops, h.starts⟩
  · intro w ms w' h hwaits
    refine ⟨⟨hwaits.connected.trans h.connected, h.same.trans
      (ProxmoxWorld.Waits.sameMade hwaits)⟩, ?_, h.starts⟩
    intro hexit
    obtain ⟨hholds, hdown⟩ := h.stops hexit
    exact ⟨hholds, fun hne => down_waits hwaits (hdown hne)⟩

/-- Starting another instance leaves this one down, whether it succeeds or not. -/
theorem start_down {tool node : JsString} {started : CommandResult} (hconnected : w.connected = node)
    (hne : place ≠ (node, vmidText))
    (hstep : ProxmoxStep w (.exec [tool, js "start", vmidText]) (.ok started) w')
    (hdown : w.Down place) : w'.Down place := by
  have heffect (h : w.Effect (.start tool vmidText) w') : w'.Down place := by
    obtain ⟨_, up, rfl⟩ := h
    rw [hconnected]
    exact down_start hne hdown
  change if started.exitCode = 0 then _ else _ at hstep
  rw [nodeCommand_start] at hstep
  split_ifs at hstep with hexit
  · exact heffect hstep.1
  · rcases hstep with rfl | hstarts
    · exact hdown
    · exact heffect hstarts

theorem exitCode_of_note {what : JsString} {result : CommandResult}
    (h : failureNote what result = []) : result.exitCode = 0 := by
  rw [failureNote] at h
  by_contra hexit
  rw [if_pos hexit] at h
  cases h

theorem triple_rollback {w₀ : ProxmoxWorld} : Triple ProxmoxStep (fun w => w = w₀)
    (proxmoxRollback turns record) (fun r w => r.success = true → RolledBack record w₀ w)
    fun _ _ => True := by
  rw [proxmoxRollback]
  split_ifs with hnothing
  · exact triple_done fun _ _ hcontra => absurd hcontra Bool.false_ne_true
  apply triple_bind (R := fun _ => Rolling record w₀)
  · apply triple_call (q := .getConnection _)
    · rintro w w' a v rfl hstep hanswer
      change a = .ok v at hanswer
      subst hanswer
      obtain rfl : w' = { w with connected := JsValue.coerce _ } := hstep
      exact ⟨rfl, fun _ => rfl, rfl⟩
    · exact fun _ _ _ _ _ _ _ => trivial
  -- the new instance is stopped; its exit code tells whether it is down
  intro _
  refine triple_templateOf_bind ?_ fun _ _ => trivial
  apply triple_bind (R := fun stopped w => Rolling record w₀ w ∧ (stopped.exitCode = 0 →
    w₀.Holds (placeOf record) (toolFor record) ∧ w.Down (placeOf record)))
  · apply triple_call (q := .exec _)
    · intro w w' a stopped hrolling hstep hanswer
      change a = .ok stopped at hanswer
      subst hanswer
      have hsame := step_sameMade (createsNothing_verb (by decide) _ _) hstep
      refine ⟨⟨(exec_connected hstep).trans hrolling.connected, hrolling.same.trans hsame⟩, ?_⟩
      intro hexit
      have heffect := (exec_effect hstep hexit).1
      rw [nodeCommand_stop, ProxmoxWorld.Effect, hrolling.connected] at heffect
      obtain ⟨hholds, rfl⟩ := heffect
      exact ⟨hrolling.same.holds hholds, down_stop⟩
    · exact fun _ _ _ _ _ _ _ => trivial
  -- the old one is started, whatever has become of the stop
  intro stopped
  refine triple_templateOf_bind ?_ fun _ _ => trivial
  apply triple_bind (R := fun started => Restarted record stopped started w₀)
  · apply triple_call (q := .exec _)
    · rintro w w' a started ⟨hrolling, hstops⟩ hstep hanswer
      change a = .ok started at hanswer
      subst hanswer
      have hsame := step_sameMade (createsNothing_verb (by decide) _ _) hstep
      refine ⟨⟨(exec_connected hstep).trans hrolling.connected, hrolling.same.trans hsame⟩, ?_, ?_⟩
      · intro hexit
        obtain ⟨hholds, hdown⟩ := hstops hexit
        exact ⟨hholds, fun hne => start_down hrolling.connected hne hstep hdown⟩
      · intro hexit
        have heffect := (exec_effect hstep hexit).1
        rw [nodeCommand_start, ProxmoxWorld.Effect, hrolling.connected] at heffect
        exact hrolling.same.holds heffect.1
    · exact fun _ _ _ _ _ _ _ => trivial
  intro started
  dsimp only
  split_ifs with hexit
  · exact triple_done fun _ _ hcontra => absurd hcontra Bool.false_ne_true
  apply triple_bind (R := fun failure w => failure = none → Restarted record stopped started w₀ w ∧
    (w.instances (restoredPlace record)).any Instance.running = true)
  · apply triple_failureOf (F := fun _ _ => True)
    · refine (triple_pollInstance restarted_kept).weaken (fun _ h => h) ?_ fun _ _ h => h
      rintro _ w ⟨hrestarted, hruns⟩ _
      rw [hrestarted.connected] at hruns
      exact ⟨hrestarted, hruns⟩
    · exact fun _ _ => trivial
    · exact fun e w _ hcontra => by cases hcontra
  intro failure
  cases failure with
  | some message => exact triple_done fun _ _ hcontra => absurd hcontra Bool.false_ne_true
  | none =>
    refine triple_templateOf_bind ?_ fun _ _ => trivial
    refine triple_templateOf_bind ?_ fun _ _ => trivial
    apply triple_done
    intro w hw hsuccess
    obtain ⟨hrestarted, hruns⟩ := hw rfl
    -- success means that no note was made, so both commands ended with 0
    have hnotes := List.append_eq_nil_iff.mp (eq_of_beq hsuccess)
    obtain ⟨hholds, hdown⟩ := hrestarted.stops (exitCode_of_note hnotes.1)
    refine ⟨Bool.eq_false_of_not_eq_true hnothing, hrestarted.same, hholds,
      hrestarted.starts (not_not.mp hexit), ?_, ?_⟩
    · exact (Option.any_eq_true _ _).mp hruns
    · exact fun hne i hi => (hdown hne.symm i hi).2

end Rollbacks

/-! ### A rollback that succeeds -/

section Success

variable {record : DeploymentRecord} {v : JsValue} {tool vmidText : JsString} {i : Instance}

def exitedWith (stdout : JsString) : CommandResult := ⟨0, stdout, []⟩

theorem exec_step {words : List JsString} {result : CommandResult} (hexit : result.exitCode = 0)
    (heffect : w.Effect (nodeCommand words) w') (htruthful : w.Truthful (nodeCommand words) result) :
    ProxmoxStep w (.exec words) (.ok result) w' := by
  change if result.exitCode = 0 then _ else _
  rw [if_pos hexit]
  exact ⟨heffect, htruthful⟩

theorem templateOf_str (s : JsString) : templateOf (.str s) = .done s := by
  rw [templateOf, if_neg (by simp [JsValue.throwsOnCoerce])]
  rfl

theorem templateOf_num (x : JsNumber) : templateOf (.num x) = .done x.toText := by
  rw [templateOf, if_neg (by simp [JsValue.throwsOnCoerce])]
  rfl

theorem step_start (up : Bool) (h : w.Holds (w.connected, vmidText) tool) :
    ProxmoxStep w (.exec [tool, js "start", vmidText]) (.ok (exitedWith []))
      (w.start (w.connected, vmidText) up) := by
  apply exec_step rfl
  · rw [nodeCommand_start]
    exact ⟨h, up, rfl⟩
  · rw [nodeCommand_start]
    trivial

theorem step_stop (h : w.Holds (w.connected, vmidText) tool) :
    ProxmoxStep w (.exec [tool, js "stop", vmidText]) (.ok (exitedWith []))
      (w.stop (w.connected, vmidText)) := by
  apply exec_step rfl
  · rw [nodeCommand_stop]
    exact ⟨h, rfl⟩
  · rw [nodeCommand_stop]
    trivial

theorem runs_infix : js "running" <:+: lowerCase (js "running") := ⟨[], [], by decide⟩

/-- The status of an instance that runs. -/
theorem step_running (hi : w.instances (w.connected, vmidText) = some i) (htool : i.tool = tool)
    (hruns : i.running = true) :
    ProxmoxStep w (.exec [tool, js "status", vmidText]) (.ok (exitedWith (js "running"))) w := by
  apply exec_step rfl
  · rw [nodeCommand_status]
    exact ⟨⟨i, hi, htool⟩, rfl⟩
  · rw [nodeCommand_status]
    refine iff_of_true runs_infix ?_
    rw [hi]
    exact hruns

theorem plays_isRunning {kind : JsValue} (hi : w.instances (w.connected, vmidText) = some i)
    (htool : i.tool = toolOf kind) (hruns : i.running = true) :
    Plays ProxmoxStep (isRunning kind vmidText) w (.ok true) w := by
  refine .ask (step_running hi htool hruns) ?_
  have hup : ((exitedWith (js "running")).exitCode == 0 &&
      decide (js "running" <:+: lowerCase (exitedWith (js "running")).stdout)) = true :=
    Bool.and_eq_true_iff.mpr ⟨rfl, decide_eq_true runs_infix⟩
  change Plays ProxmoxStep (.done (_ && _)) w (.ok true) w
  rw [hup]
  exact .done true w

/-- An instance that runs is seen to run at once. -/
theorem plays_pollInstance {kind : JsValue} (hv : templateOf v = .done v.coerce)
    (hi : w.instances (w.connected, v.coerce) = some i) (htool : i.tool = toolOf kind)
    (hruns : i.running = true) :
    Plays ProxmoxStep (pollInstance 1 kind v) w (.ok ()) w := by
  have hclock : ProxmoxStep w .now w.clock w := ⟨le_rfl, rfl⟩
  have hawait : Plays ProxmoxStep (awaitInstance kind v.coerce (w.clock+60000) 1) w (.ok ()) w := by
    refine .ask hclock ?_
    change Plays ProxmoxStep (if w.clock < w.clock+60000 then _ else _) w (.ok ()) w
    rw [if_pos (Nat.lt_add_of_pos_right (by decide))]
    exact (plays_isRunning hi htool hruns).then (.done () w)
  refine .ask hclock ?_
  change Plays ProxmoxStep ((templateOf v).bind _) w (.ok ()) w
  rw [hv]
  exact hawait

theorem rollback_succeeds {x y : JsNumber} {node kind : JsString}
    (hnode : getOwn (js "node_id") record.payload.details = .str node)
    (hvmid : getOwn (js "vmid") record.payload.details = .num x)
    (hkind : getOwn (js "workload_kind") record.payload.details = .str kind)
    (hprevious : getOwn (js "previous_vmid") record.payload.details = .num y)
    (hstopped : w.Holds (placeOf record) (toolFor record))
    (hstarted : w.Holds (restoredPlace record) (toolFor record)) :
    ∃ r w', Plays ProxmoxStep (proxmoxRollback 1 record) w (.ok r) w' ∧ r.success = true := by
  rw [placeOf, toolFor, hnode, hvmid, hkind] at hstopped
  rw [restoredPlace, toolFor, hnode, hprevious, hkind] at hstarted
  let w₁ : ProxmoxWorld := { w with connected := node }
  let w₂ := w₁.stop (node, x.toText)
  let w₃ := w₂.start (node, y.toText) true
  have hholds : w₂.Holds (node, y.toText) (toolOf (.str kind)) :=
    (sameMade_stop (w := w₁)).symm.holds hstarted
  obtain ⟨i, hi, htool⟩ := hholds
  have hi' : w₃.instances (node, y.toText) = some { i with started := true, running := true } :=
    (ProxmoxWorld.alter_self (w := w₂)).trans (congrArg (Option.map _) hi)
  have hpoll : Plays ProxmoxStep (pollInstance 1 (.str kind) (.num y)) w₃ (.ok ()) w₃ :=
    plays_pollInstance (templateOf_num y) hi' htool rfl
  let restored := js "proxmox://" ++ node ++ js "/" ++ kind ++ js "/" ++ y.toText
  refine ⟨⟨true, some restored, []⟩, w₃, ?_, rfl⟩
  have hnamed : ¬ isNullish (.num y) = true := Bool.false_ne_true
  rw [proxmoxRollback]
  dsimp only
  rw [hnode, hvmid, hkind, hprevious, if_neg hnamed, templateOf_num, templateOf_num, templateOf_str,
    templateOf_str]
  have hconnect : ProxmoxStep w (.getConnection (.str node)) (.ok ()) w₁ := rfl
  refine .ask hconnect ?_
  refine .ask (step_stop (w := w₁) hstopped) ?_
  refine .ask (step_start (w := w₂) true ⟨i, hi, htool⟩) ?_
  refine (plays_catching_ok (hpoll.then (.done none w₃))).then ?_
  exact .done _ w₃

end Success

end Homelab
