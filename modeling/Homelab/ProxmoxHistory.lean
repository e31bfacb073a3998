import Homelab.Automaton
import Homelab.ProxmoxCalls

/-! Histories of builds and deploys on Proxmox nodes, and what a rollback of the last deploy
brings back. -/
namespace Homelab
open Js Path Dialogue LiveValue

/-! ### Histories -/

/-- A deploy that has returned its record, and which creation was then at the place of the
record. -/
structure Deployment where
  artifact : BuildArtifact
  record : DeploymentRecord
  made : Option ℕ

/-- The nodes, what has been built, and what has been deployed, the last one first. -/
structure ProxmoxHistory where
  world : ProxmoxWorld
  built : List BuildArtifact
  deployed : List Deployment

/-- A call with its result and the nodes after it. Between the calls, someone may destroy an
instance. -/
inductive ProxmoxEvent
  | build (ctx : BuildContext) (r : Except DeployStop BuildArtifact) (w : ProxmoxWorld)
  | deploy (turns : ℕ) (artifact : BuildArtifact) (env : JsString) (rawParams : Fields)
    (r : Except DeployStop DeploymentRecord) (w : ProxmoxWorld)
  | remove (place : InstancePlace)

def ProxmoxHistory.next (s : ProxmoxHistory) : ProxmoxEvent → ProxmoxHistory
  | .build _ (.ok artifact) w => { s with world := w, built := artifact :: s.built }
  | .build _ (.error _) w => { s with world := w }
  | .deploy _ artifact _ _ (.ok record) w =>
    { s with
      world := w
      deployed := ⟨artifact, record, (w.instances (placeOf record)).map Instance.made⟩ :: s.deployed }
  | .deploy _ _ _ _ (.error _) w => { s with world := w }
  | .remove place => { s with world := s.world.remove place }

/-- Artifacts are built before they are deployed, with whatever parameters. -/
def proxmoxMachine (host : DeployHost) : Automaton ProxmoxHistory ProxmoxEvent where
  allowed s
    | .build ctx r w => Plays ProxmoxStep (proxmoxBuild host ctx) s.world r w
    | .deploy turns artifact env rawParams r w => artifact ∈ s.built ∧
        Plays ProxmoxStep (proxmoxDeploy host turns artifact env rawParams) s.world r w
    | .remove _ => True
  next := ProxmoxHistory.next

/-- Nothing has been built or deployed yet, whatever there is on the nodes. -/
structure ProxmoxHistory.Begins (s : ProxmoxHistory) : Prop where
  numbered : Numbered s.world
  files : ∀ path, s.world.files path = none
  built : s.built = []
  deployed : s.deployed = []

/-! ### What a rollback has to bring back -/

def Deployment.place (d : Deployment) : InstancePlace := placeOf d.record

/-- The vmid that the artifact was built for, on the node of the record. -/
def Deployment.builtPlace (d : Deployment) : InstancePlace :=
  ((getOwn (js "node_id") d.record.payload.details).coerce,
    (getOwn (js "vmid") d.artifact.metadata).coerce)

/-- The instance that a rollback of `d` has started is the one of `p` and runs; the one of `d`
does not. -/
structure RestoredTo (d p : Deployment) (w : ProxmoxWorld) : Prop where
  place : p.place = restoredPlace d.record
  runs : ∃ i, w.instances p.place = some i ∧ p.made = some i.made ∧ i.running = true
  rests : ∀ i, w.instances d.place = some i → d.made = some i.made → i.running = false

/-- A rollback of the last deploy that reports success restores the deploy before it. -/
def RollbackRestores (s : ProxmoxHistory) : Prop :=
  ∀ d rest, s.deployed = d :: rest → ∀ turns r w,
    Plays ProxmoxStep (proxmoxRollback turns d.record) s.world (.ok r) w → r.success = true →
      ∃ p ∈ rest.head?, RestoredTo d p w

/-- Instances of the kind that the record says are under its vmid and under the one that the
artifact was built for. -/
def Carries (w : ProxmoxWorld) (d : Deployment) : Prop :=
  w.Holds d.place (toolFor d.record) ∧ w.Holds d.builtPlace (toolFor d.record)

/-- The last deploy was of an artifact without a predecessor, or its instances are gone, or it was
of an artifact that had been built for the vmid of the deploy before it, not for the vmid that it
went to, and that one's instance is still there. -/
def PredecessorAsBuilt (s : ProxmoxHistory) : Prop :=
  ∀ d rest, s.deployed = d :: rest →
    isNullish (getOwn (js "previous_vmid") d.artifact.metadata) = true ∨ ¬ Carries s.world d ∨
    ∃ p ∈ rest.head?, p.place = d.builtPlace ∧ d.builtPlace ≠ d.place ∧
      ∃ i, s.world.instances p.place = some i ∧ p.made = some i.made

/-! ### What histories keep -/

variable {host : DeployHost} {w w' : ProxmoxWorld} {d : Deployment} {s s₀ : ProxmoxHistory}

/-- Whatever is now at the place of a deploy is its instance or a later one. -/
structure DatedDeploy (w : ProxmoxWorld) (d : Deployment) : Prop where
  records : RecordsDeploy d.artifact d.record
  named : NamesItself d.artifact
  made : ∃ n, d.made = some n ∧ n < w.created ∧ ∀ i, w.instances d.place = some i → n ≤ i.made

theorem DatedDeploy.later (h : DatedDeploy w d) (hlater : Later w w') : DatedDeploy w' d := by
  obtain ⟨n, hmade, hcreated, hinstances⟩ := h.made
  refine ⟨h.records, h.named, n, hmade, hcreated.trans_le hlater.created, fun i' hi' => ?_⟩
  rcases hlater.instances _ i' hi' with ⟨i, hi, hsame⟩ | ⟨hnew, _⟩
  · exact (hinstances i hi).trans hsame.le
  · exact hcreated.le.trans hnew

/-- Of two deploys to one place the later one has the later instance. -/
def LaterInstance (d p : Deployment) : Prop :=
  d.place = p.place → ∀ m n, p.made = some m → d.made = some n → m ≤ n

structure HistoryKept (host : DeployHost) (s : ProxmoxHistory) : Prop where
  numbered : Numbered s.world
  files : FilesKept host s.world
  built : ∀ artifact ∈ s.built, NamesItself artifact
  deployed : ∀ d ∈ s.deployed, DatedDeploy s.world d
  order : s.deployed.Pairwise LaterInstance

theorem HistoryKept.later (h : HistoryKept host s) (hlater : Later s.world w)
    (hfiles : FilesKept host w) : HistoryKept host { s with world := w } :=
  ⟨hlater.numbered h.numbered, hfiles, h.built, fun d hd => (h.deployed d hd).later hlater, h.order⟩

theorem historyKept_step (e : ProxmoxEvent) (h : HistoryKept host s)
    (ha : (proxmoxMachine host).allowed s e) : HistoryKept host (s.next e) := by
  cases e with
  | build ctx r w =>
    have hrun : Plays ProxmoxStep (proxmoxBuild host ctx) s.world r w := ha
    have hkept := h.later (plays_later hrun) (plays_files h.files build_writes hrun)
    cases r with
    | error stop => exact hkept
    | ok artifact =>
      have hnamed := (triple_build ctx s.world _ w h.files hrun).1 artifact rfl
      exact { hkept with built := List.forall_mem_cons.mpr ⟨hnamed, h.built⟩ }
  | deploy turns artifact env rawParams r w =>
    obtain ⟨hbuilt, hrun⟩ := ha
    have hkept := h.later (plays_later hrun) (plays_files h.files deploy_writes hrun)
    cases r with
    | error stop => exact hkept
    | ok record =>
      obtain ⟨hrecords, hsome⟩ := (triple_deploy s.world _ w trivial hrun).1 record rfl
      obtain ⟨i, hi⟩ := Option.isSome_iff_exists.mp hsome
      let d : Deployment := ⟨artifact, record, (w.instances (placeOf record)).map Instance.made⟩
      have hmade : d.made = some i.made := congrArg (Option.map Instance.made) hi
      have hdated : DatedDeploy w d := by
        refine ⟨hrecords, h.built artifact hbuilt, i.made, hmade, hkept.numbered _ i hi, ?_⟩
        intro i' hi'
        rw [Option.some.inj (hi.symm.trans hi')]
      have hfollows : ∀ p ∈ s.deployed, LaterInstance d p := by
        intro p hp hplace m n hm hn
        obtain ⟨m', hm', _, hold⟩ := (hkept.deployed p hp).made
        rw [Option.some.inj (hm.symm.trans hm'), ← Option.some.inj (hmade.symm.trans hn)]
        exact hold i (hplace ▸ hi)
      exact { hkept with
        deployed := List.forall_mem_cons.mpr ⟨hdated, hkept.deployed⟩
        order := List.pairwise_cons.mpr ⟨hfollows, h.order⟩ }
  | remove place => exact h.later remove_later h.files

theorem historyKept_of_reaches {C : ProxmoxHistory → ProxmoxEvent → Prop} (hbegins : s₀.Begins)
    (h : (proxmoxMachine host).Reaches C s₀ s) : HistoryKept host s := by
  refine h.invariant (I := HistoryKept host) ?_ fun x e hx ha _ => historyKept_step e hx ha
  refine ⟨hbegins.numbered, ?_, ?_, ?_, ?_⟩
  · intro path signed hfile
    rw [hbegins.files path] at hfile
    cases hfile
  · simp [hbegins.built]
  · simp [hbegins.deployed]
  · simp [hbegins.deployed]

/-! ### When a rollback restores the deploy before -/

/-- A rollback starts what the artifact was built for. -/
theorem restoredPlace_eq (h : DatedDeploy w d)
    (hsome : ¬ isNullish (getOwn (js "previous_vmid") d.artifact.metadata) = true) :
    restoredPlace d.record = d.builtPlace ∧
      ∃ x, getOwn (js "previous_vmid") d.record.payload.details = .num x := by
  obtain ⟨vmid, hvmid, hrecorded⟩ := h.named
  rcases hrecorded with hnull | ⟨x, hx, htext⟩
  · rw [hnull] at hsome
    exact absurd rfl hsome
  · have hprevious : getOwn (js "previous_vmid") d.record.payload.details = .num x := by
      rw [h.records.previous, hx]
      rfl
    refine ⟨?_, x, hprevious⟩
    rw [restoredPlace, Deployment.builtPlace, hprevious, hvmid]
    exact congrArg _ htext

theorem not_named (h : DatedDeploy w d)
    (hnothing : isNullish (getOwn (js "previous_vmid") d.artifact.metadata) = true) :
    isNullish (getOwn (js "previous_vmid") d.record.payload.details) = true := by
  rw [h.records.previous]
  cases hprevious : getOwn (js "previous_vmid") d.artifact.metadata with
  | undefined => rfl
  | null => rfl
  | _ =>
    rw [hprevious] at hnothing
    cases hnothing

/-- What a rollback of the last deploy brings back is the deploy before it exactly when this one
is at the place that the artifact was built for, and the last one is not. -/
theorem restores_iff {rest : List Deployment} (hkept : HistoryKept host s)
    (hd : s.deployed = d :: rest)
    (hsome : ¬ isNullish (getOwn (js "previous_vmid") d.artifact.metadata) = true)
    (hcarries : Carries s.world d) :
    (∀ turns r w, Plays ProxmoxStep (proxmoxRollback turns d.record) s.world (.ok r) w →
      r.success = true → ∃ p ∈ rest.head?, RestoredTo d p w) ↔
    ∃ p ∈ rest.head?, p.place = d.builtPlace ∧ d.builtPlace ≠ d.place ∧
      ∃ i, s.world.instances p.place = some i ∧ p.made = some i.made := by
  have hdated := hkept.deployed d (hd ▸ List.mem_cons_self ..)
  obtain ⟨hplace, y, hprevious⟩ := restoredPlace_eq hdated hsome
  constructor
  · intro h
    obtain ⟨node, hnode⟩ := hdated.records.node
    obtain ⟨x, hvmid⟩ := hdated.records.vmid
    obtain ⟨kind, hkind⟩ := hdated.records.kind
    obtain ⟨r, w, hrun, hsuccess⟩ := rollback_succeeds hnode hvmid hkind hprevious hcarries.1
      (hplace ▸ hcarries.2)
    have hsame := plays_sameMade rollback_creates hrun
    obtain ⟨p, hp, hrestored⟩ := h 1 r w hrun hsuccess
    obtain ⟨i', hi', hmade, hruns⟩ := hrestored.runs
    obtain ⟨i, hi, _, hmade'⟩ := hsame.instance hi'
    refine ⟨p, hp, hrestored.place.trans hplace, ?_, i, hi, hmade' ▸ hmade⟩
    intro hself
    -- at one place, the instance of the deploy before is not a later one than that of the last
    have hp' : p ∈ rest := List.mem_of_mem_head? hp
    have hsameplace : d.place = p.place := (hrestored.place.trans hplace).trans hself |>.symm
    obtain ⟨n, hn, _, hold⟩ := hdated.made
    have horder : i'.made ≤ n := by
      have hpairs := List.pairwise_cons.mp (hd ▸ hkept.order)
      exact hpairs.1 p hp' hsameplace _ _ hmade hn
    have hyounger : n ≤ i'.made := hmade' ▸ hold i (hsameplace ▸ hi)
    have hlast : d.made = some i'.made := hn.trans (congrArg some (hyounger.antisymm horder))
    have hstill := hrestored.rests i' (hsameplace ▸ hi') hlast
    rw [hstill] at hruns
    cases hruns
  · rintro ⟨p, hp, hpplace, hother, i, hi, hmade⟩ turns r w hrun hsuccess
    have hrolled := (triple_rollback s.world _ w rfl hrun).1 r rfl hsuccess
    obtain ⟨i', hi', hruns⟩ := hrolled.runs
    rw [hplace, ← hpplace] at hi'
    obtain ⟨i₀, hi₀, _, hmade'⟩ := hrolled.same.instance hi'
    obtain rfl := Option.some.inj (hi.symm.trans hi₀)
    refine ⟨p, hp, hpplace.trans hplace.symm, ⟨i', hi', hmade' ▸ hmade, hruns⟩, ?_⟩
    intro j hj _
    exact hrolled.rests (hplace ▸ hother) j hj

/-- After every history: a rollback that reports success brings back the deploy before the last
one exactly in the case that this is what the artifact was built for. -/
theorem rollback_restores_iff (host : DeployHost) (s₀ s : ProxmoxHistory) (hbegins : s₀.Begins)
    (hreaches : (proxmoxMachine host).Reaches Automaton.anyEvent s₀ s) :
    RollbackRestores s ↔ PredecessorAsBuilt s := by
  have hkept := historyKept_of_reaches hbegins hreaches
  refine forall_congr' fun d => forall_congr' fun rest => forall_congr' fun hd => ?_
  have hdated := hkept.deployed d (hd ▸ List.mem_cons_self ..)
  by_cases hnothing : isNullish (getOwn (js "previous_vmid") d.artifact.metadata) = true
  · refine iff_of_true ?_ (Or.inl hnothing)
    intro turns r w hrun hsuccess
    have hrolled := (triple_rollback s.world _ w rfl hrun).1 r rfl hsuccess
    have hnamed := hrolled.named
    rw [not_named hdated hnothing] at hnamed
    cases hnamed
  · by_cases hcarries : Carries s.world d
    · rw [restores_iff hkept hd hnothing hcarries]
      constructor
      · exact fun h => Or.inr (Or.inr h)
      · rintro (h | h | h)
        · exact absurd h hnothing
        · exact absurd hcarries h
        · exact h
    · refine iff_of_true ?_ (Or.inr (Or.inl hcarries))
      intro turns r w hrun hsuccess
      have hrolled := (triple_rollback s.world _ w rfl hrun).1 r rfl hsuccess
      have hstarted := hrolled.started
      rw [(restoredPlace_eq hdated hnothing).1] at hstarted
      exact absurd ⟨hrolled.stopped, hstarted⟩ hcarries

/-! ### A container that is built and deployed twice -/

section Redeploy

variable {image : JsString} {previous : JsValue} {i : Instance}

def webVmid : JsNumber := .ofNat 101

def webPlace : InstancePlace := (js "pve1", js "101")

def webParams (image : JsString) : Fields :=
  [(js "node_id", .str (js "pve1")), (js "workload_kind", .str (js "lxc")), (js "vmid", .num webVmid),
    (js "image_uri", .str image), (js "storage_pool", .str (js "local")),
    (js "hostname", .str (js "web"))]

/-- The parameters with the defaults of the schema. -/
def webValidated (image : JsString) : Fields :=
  webParams image ++ [(js "cores", .num (.ofNat 1)), (js "memory_mb", .num (.ofNat 512)),
    (js "health_timeout_seconds", .num (.ofNat 120))]

/-- An image that the checks let pass. -/
structure Accepted (image : JsString) : Prop where
  valid : validateParameters (webParams image) proxmoxSchema = .ok (webValidated image)
  safe : ensureSafe (js "image_uri") image = .ok image

theorem accepted_first : Accepted (js "web:1") := ⟨by with_unfolding_all rfl, rfl⟩

theorem accepted_second : Accepted (js "web:2") := ⟨by with_unfolding_all rfl, rfl⟩

theorem webVmid_checked : checkedVmid (webValidated image) = .ok webVmid := by
  with_unfolding_all rfl

def webContext (image : JsString) : BuildContext := ⟨js "0a1b", webParams image⟩

def webArtifact (image : JsString) (previous : JsValue) : BuildArtifact :=
  proxmoxArtifact deployHost (webContext image) (webValidated image) webVmid previous

def connectedWorld (w : ProxmoxWorld) : ProxmoxWorld := { w with connected := js "pve1" }

theorem web_connect : ProxmoxStep w (.getConnection (.str (js "pve1"))) (.ok ()) (connectedWorld w) :=
  rfl

/-- The nodes after a build. -/
def builtWorld (w : ProxmoxWorld) : ProxmoxWorld := (connectedWorld w).create webPlace (js "pct")

theorem web_words (himage : Accepted image) :
    buildPctCreateCmd (createOpts (webValidated image) webVmid) = .ok [js "pct", js "create",
      js "101", image, js "--storage", js "local", js "--hostname", js "web", js "--cores", js "1",
      js "--memory", js "512"] := by
  change (ensureSafe (js "image_uri") image).bind _ = _
  rw [himage.safe]
  rfl

theorem web_create (himage : Accepted image) (hfree : w.instances webPlace = none) :
    Plays ProxmoxStep (createInstance (webValidated image) webVmid) (connectedWorld w) (.ok ())
      (builtWorld w) := by
  change Plays ProxmoxStep (runBuildCommand (buildPctCreateCmd _)) _ _ _
  rw [web_words himage]
  have hcreate (rest : List JsString) : ProxmoxStep (connectedWorld w)
      (.exec (js "pct" :: js "create" :: js "101" :: rest)) (.ok (exitedWith [])) (builtWorld w) :=
    exec_step rfl ⟨hfree, rfl⟩ trivial
  exact .ask (hcreate _) (.done () _)

theorem web_build (himage : Accepted image) (hfree : w.instances webPlace = none)
    (hrecorded : Plays ProxmoxStep (recordedVmid deployHost webVmid) (builtWorld w) (.ok previous)
      (builtWorld w)) :
    Plays ProxmoxStep (proxmoxBuild deployHost (webContext image)) w
      (.ok (webArtifact image previous)) (builtWorld w) := by
  have hparams : (Deploy.check (validateParameters (webContext image).params proxmoxSchema)) =
      .done (webValidated image) := congrArg Deploy.check himage.valid
  rw [proxmoxBuild, hparams]
  change Plays ProxmoxStep ((Deploy.check (checkedVmid (webValidated image))).bind _) _ _ _
  rw [webVmid_checked]
  refine .ask web_connect ?_
  refine (web_create himage hfree).then ?_
  exact hrecorded.then (.done _ _)

/-- The file of the record that is kept for the next build. -/
def webFile : JsString := join [join [js "/d", js "proxmox"], js "101.json"]

theorem webFile_path : proxmoxRecordPath deployHost webVmid = .ok webFile := rfl

def webKept (image : JsString) : Fields := proxmoxKept (webValidated image) webVmid

theorem webKept_signed (image : JsString) :
    ∃ signed, signPayload deployHost.toHmacHost (.ofJs (.obj (webKept image))) = .ok signed := by
  obtain ⟨text, htext⟩ := encode_of_isJson (.obj (webKept image)) rfl
  rw [← encode_ofJs] at htext
  exact ⟨_, signPayload_iff.mpr ⟨text, _, htext, dateHost_secret, rfl⟩⟩

def startedWorld (w : ProxmoxWorld) : ProxmoxWorld := (connectedWorld w).start webPlace true

theorem web_started (hi : w.instances webPlace = some i) :
    (startedWorld w).instances webPlace = some { i with started := true, running := true } :=
  (ProxmoxWorld.alter_self (w := connectedWorld w)).trans (congrArg (Option.map _) hi)

/-- The container does not tell its address. -/
theorem web_address : Plays ProxmoxStep (resolveAssignedIp (.str (js "lxc")) (js "101")) w
    (.ok .null) w := by
  have hrefused : ProxmoxStep w (.exec [js "pct", js "exec", js "101", js "--", js "ip", js "-j",
      js "addr", js "show", js "eth0"]) (.ok ⟨1, [], []⟩) w := Or.inl rfl
  exact .ask hrefused (.done _ w)

def webPayload (image : JsString) (previous : JsValue) : DeploymentRecordPayload where
  id := js "d1"
  backendName := js "proxmox"
  target := js "homelab-proxmox"
  envName := js "prod"
  artifactLocation := js "proxmox://pve1/lxc/101"
  stateful := none
  details := proxmoxDetails (webValidated image) webVmid .null previous (js "2026-01-01T00:00:00.000Z")
  deployedAt := js "2026-01-01T00:00:00.000Z"

theorem webPayload_signed (image : JsString) (hprevious : ∃ t, encode previous = .ok t) :
    ∃ record, signDeploymentRecord deployHost (webPayload image previous) = .ok record := by
  have hstr (s : JsString) : ∃ t, encode (.str s) = .ok t := ⟨_, rfl⟩
  have hvmid : ∃ t, encode (.num webVmid) = .ok t := ⟨_, rfl⟩
  have hnull : ∃ t, encode .null = .ok t := ⟨_, rfl⟩
  have hdetails : ∃ t, encode (.obj (webPayload image previous).details) = .ok t := by
    apply encode_obj_ok.mpr
    simp only [webPayload, proxmoxDetails, List.forall_mem_cons, List.not_mem_nil, false_imp_iff,
      implies_true, and_true, hprevious, hvmid, hnull, hstr, true_and]
    exact ⟨hstr _, hstr _, hstr _, hstr _⟩
  have hpayload : ∃ t, encode (.obj (webPayload image previous).fields) = .ok t := by
    apply encode_obj_ok.mpr
    simp only [webPayload, DeploymentRecordPayload.fields, Option.map_none, Option.toList_none,
      List.append_nil, List.cons_append, List.nil_append, List.forall_mem_cons, List.not_mem_nil,
      false_imp_iff, implies_true, and_true, hstr, true_and]
    exact hdetails
  obtain ⟨text, htext⟩ := hpayload
  exact ⟨_, signDeploymentRecord_iff.mpr ⟨text, _, htext, dateHost_secret, rfl⟩⟩

theorem web_record (hprevious : ∃ t, encode previous = .ok t) (hnull : previous.orElse .null = previous) :
    ∃ record signed, Plays ProxmoxStep (proxmoxRecord deployHost (webArtifact image previous)
        (js "prod") (webValidated image) webVmid .null) w (.ok record) (w.write webFile signed) ∧
      signPayload deployHost.toHmacHost (.ofJs (.obj (webKept image))) = .ok signed ∧
      placeOf record = webPlace ∧ toolFor record = js "pct" := by
  obtain ⟨signed, hsigned⟩ := webKept_signed image
  obtain ⟨record, hrecord⟩ := webPayload_signed image hprevious
  have hpayload : record.payload = webPayload image previous := by
    obtain ⟨_, _, _, _, rfl⟩ := signDeploymentRecord_iff.mp hrecord
    rfl
  refine ⟨record, signed, ?_, hsigned, ?_, ?_⟩
  · have hclock : ProxmoxStep w .now w.clock w := ⟨le_rfl, rfl⟩
    have hid : ProxmoxStep w .generateId (js "d1") w := rfl
    have hwrite : ProxmoxStep w (.writeRecord webFile signed) (.ok ()) (w.write webFile signed) := rfl
    have hmetadata : getOwn (js "previous_vmid") (webArtifact image previous).metadata = previous :=
      proxmoxArtifact_metadata _ _ |>.2
    rw [proxmoxRecord, hmetadata, hnull, webFile_path]
    refine .ask hclock (.ask hid ?_)
    have hpersist : Plays ProxmoxStep (persistRecord deployHost webFile (webKept image)) w (.ok ())
        (w.write webFile signed) := by
      rw [persistRecord, hsigned]
      exact .ask hwrite (.done () _)
    refine hpersist.then ?_
    change Plays ProxmoxStep (Deploy.orThrow (signDeploymentRecord deployHost
      (webPayload image previous))) _ _ _
    rw [hrecord]
    exact .done _ _
  · rw [placeOf, hpayload]
    rfl
  · rw [toolFor, hpayload]
    rfl

theorem web_deploy (himage : Accepted image) (hi : w.instances webPlace = some i)
    (htool : i.tool = js "pct") (hprevious : ∃ t, encode previous = .ok t)
    (hnull : previous.orElse .null = previous) :
    ∃ record signed, Plays ProxmoxStep (proxmoxDeploy deployHost 1 (webArtifact image previous)
        (js "prod") (webParams image)) w (.ok record) ((startedWorld w).write webFile signed) ∧
      signPayload deployHost.toHmacHost (.ofJs (.obj (webKept image))) = .ok signed ∧
      placeOf record = webPlace ∧ toolFor record = js "pct" := by
  have hstart : ProxmoxStep (connectedWorld w) (.exec [js "pct", js "start", js "101"])
      (.ok (exitedWith [])) (startedWorld w) := step_start true ⟨i, hi, htool⟩
  have hpoll : Plays ProxmoxStep (pollInstance 1 (.str (js "lxc")) (.num webVmid)) (startedWorld w)
      (.ok ()) (startedWorld w) :=
    plays_pollInstance (templateOf_num webVmid) (web_started hi) htool rfl
  obtain ⟨record, signed, hrecord, hrest⟩ :=
    @web_record (startedWorld w) image previous hprevious hnull
  refine ⟨record, signed, ?_, hrest⟩
  rw [proxmoxDeploy, himage.valid]
  change Plays ProxmoxStep ((Deploy.check (checkedVmid (webValidated image))).bind _) _ _ _
  rw [webVmid_checked]
  exact .ask web_connect (.ask hstart (hpoll.then (web_address.then hrecord)))

/-- The next build finds the vmid itself. -/
theorem web_recorded {signed : Signed} (hfiles : FilesKept deployHost w)
    (hfile : w.files webFile = some signed)
    (hsigned : signPayload deployHost.toHmacHost (.ofJs (.obj (webKept image))) = .ok signed) :
    ∃ x, Plays ProxmoxStep (recordedVmid deployHost webVmid) w (.ok (.num x)) w ∧
      x.toText = js "101" := by
  have hordered : WellOrdered (.obj (webKept image)) := rfl
  obtain ⟨raw, hreread, hverify⟩ := roundTrips_of_faithful hordered hsigned (faithful_ofJs _)
  have hback : ReadBack (w.files webFile) (some raw) := by
    rw [hfile]
    exact ⟨raw, hreread, rfl⟩
  obtain ⟨x, hx, htext⟩ := readBack_vmid hfiles webFile_path hback rfl
  refine ⟨x, ?_, htext⟩
  have hread : ProxmoxStep w (.readRecord webFile) (.ok (some raw)) w := ⟨hback, rfl⟩
  have hpayload : readSignedRecord deployHost.toHmacHost webFile (some raw) =
      .ok (some (property (js "payload") raw)) := if_pos hverify
  rw [recordedVmid, webFile_path]
  apply plays_catching_ok
  refine .ask hread ?_
  change Plays ProxmoxStep ((Deploy.orThrow (readSignedRecord _ _ (some raw))).bind _) _ _ _
  rw [hpayload]
  generalize property (js "payload") raw = record at hx
  have hfound : readProperty record (js "vmid") = .ok (.num x) := by
    rw [property] at hx
    rw [readProperty]
    cases hget : record.get? (js "vmid") with
    | none =>
      rw [hget] at hx
      cases hx
    | some found =>
      rw [hget] at hx
      exact congrArg Except.ok hx
  have hlast : Plays ProxmoxStep (Deploy.orThrow (readProperty record (js "vmid"))) w (.ok (.num x)) w := by
    rw [hfound]
    exact .done _ w
  cases record with
  | null => cases hx
  | _ => exact hlast

def emptyWorld : ProxmoxWorld where
  instances _ := none
  connected := []
  created := 0
  files _ := none
  clock := 0

def emptyHistory : ProxmoxHistory := ⟨emptyWorld, [], []⟩

theorem emptyHistory_begins : emptyHistory.Begins :=
  ⟨fun _ _ hi => (by cases hi), fun _ => rfl, rfl, rfl⟩

/-- A number of this text has a canonical text. -/
theorem encode_web {x : JsNumber} (htext : x.toText = js "101") : ∃ t, encode (.num x) = .ok t := by
  cases x with
  | fin d => exact ⟨_, rfl⟩
  | nan => exact absurd htext (by decide)
  | inf negative => cases negative <;> exact absurd htext (by decide)

/-- The container is built, deployed and destroyed, and then built again with another image. -/
theorem web_rebuilt : ∃ s x, (proxmoxMachine deployHost).Reaches Automaton.anyEvent emptyHistory s ∧
    webArtifact (js "web:2") (.num x) ∈ s.built ∧ x.toText = js "101" ∧
    ∃ i, s.world.instances webPlace = some i ∧ i.tool = js "pct" := by
  have hnothing : Plays ProxmoxStep (recordedVmid deployHost webVmid) (builtWorld emptyWorld)
      (.ok .null) (builtWorld emptyWorld) := by
    have hread : ProxmoxStep (builtWorld emptyWorld) (.readRecord webFile) (.ok none)
        (builtWorld emptyWorld) := ⟨rfl, rfl⟩
    rw [recordedVmid, webFile_path]
    exact plays_catching_ok (.ask hread (.done _ _))
  let first := webArtifact (js "web:1") .null
  let w₁ := builtWorld emptyWorld
  have hbuild : Plays ProxmoxStep (proxmoxBuild deployHost (webContext (js "web:1"))) emptyWorld
      (.ok first) w₁ := web_build accepted_first rfl hnothing
  have hbuilt : w₁.instances webPlace = some ⟨js "pct", 0, false, false⟩ :=
    ProxmoxWorld.create_self
  obtain ⟨record, signed, hdeploy, hsigned, _⟩ :=
    @web_deploy w₁ (js "web:1") .null _ accepted_first hbuilt rfl ⟨_, rfl⟩ rfl
  let w₂ := ((startedWorld w₁).write webFile signed).remove webPlace
  let d : Deployment := ⟨first, record,
    (((startedWorld w₁).write webFile signed).instances (placeOf record)).map Instance.made⟩
  have hreaches₁ : (proxmoxMachine deployHost).Reaches Automaton.anyEvent emptyHistory
      ⟨w₁, [first], []⟩ :=
    (Automaton.Reaches.refl _).step (e := ProxmoxEvent.build _ (.ok first) w₁) hbuild trivial
  have hreaches₂ : (proxmoxMachine deployHost).Reaches Automaton.anyEvent emptyHistory
      ⟨(startedWorld w₁).write webFile signed, [first], [d]⟩ :=
    hreaches₁.step (e := ProxmoxEvent.deploy 1 first (js "prod") (webParams (js "web:1")) (.ok record) _)
      ⟨List.mem_cons_self .., hdeploy⟩ trivial
  have hreaches₃ : (proxmoxMachine deployHost).Reaches Automaton.anyEvent emptyHistory
      ⟨w₂, [first], [d]⟩ :=
    hreaches₂.step (e := ProxmoxEvent.remove webPlace) trivial trivial
  -- the record of the first deploy is what the second build finds
  have hkept := historyKept_of_reaches emptyHistory_begins hreaches₃
  have hfree : w₂.instances webPlace = none := ProxmoxWorld.remove_self
  have hfile : (builtWorld w₂).files webFile = some signed :=
    @ProxmoxWorld.write_self (startedWorld w₁) webFile signed
  obtain ⟨x, hrecorded, htext⟩ := web_recorded (w := builtWorld w₂) hkept.files hfile hsigned
  have hrebuild := web_build accepted_second hfree hrecorded
  refine ⟨⟨builtWorld w₂, [webArtifact (js "web:2") (.num x), first], [d]⟩, x, ?_,
    List.mem_cons_self .., htext, _, ProxmoxWorld.create_self, rfl⟩
  exact hreaches₃.step (e := ProxmoxEvent.build _ (.ok _) (builtWorld w₂)) hrebuild trivial

/-- It is deployed again: a rollback starts the container itself. -/
theorem web_redeployed : ∃ s d rest, (proxmoxMachine deployHost).Reaches Automaton.anyEvent
    emptyHistory s ∧ s.deployed = d :: rest ∧ d.builtPlace = d.place ∧
    ¬ isNullish (getOwn (js "previous_vmid") d.artifact.metadata) = true ∧ Carries s.world d := by
  obtain ⟨s, x, hreaches, hbuilt, htext, i, hi, htool⟩ := web_rebuilt
  obtain ⟨record, signed, hdeploy, _, hplace, hpct⟩ :=
    @web_deploy s.world (js "web:2") (.num x) i accepted_second hi htool (encode_web htext) rfl
  have hredeployed := hreaches.step
    (e := ProxmoxEvent.deploy 1 _ (js "prod") (webParams (js "web:2")) (.ok record) _)
    ⟨hbuilt, hdeploy⟩ trivial
  obtain ⟨hvmid, hprevious⟩ := @proxmoxArtifact_metadata deployHost (webValidated (js "web:2"))
    webVmid (webContext (js "web:2")) (.num x)
  have hholds : ((startedWorld s.world).write webFile signed).Holds webPlace (toolFor record) :=
    ⟨_, web_started hi, htool.trans hpct.symm⟩
  have hbuiltPlace : ((getOwn (js "node_id") record.payload.details).coerce,
      (getOwn (js "vmid") (webArtifact (js "web:2") (.num x)).metadata).coerce) = webPlace :=
    congrArg₂ Prod.mk (Prod.mk.inj hplace).1 (congrArg JsValue.coerce hvmid)
  refine ⟨_, _, _, hredeployed, rfl, hbuiltPlace.trans hplace.symm, ?_, ?_⟩
  · rw [webArtifact, hprevious]
    exact Bool.false_ne_true
  · rw [Carries, Deployment.place, hplace, Deployment.builtPlace, hbuiltPlace]
    exact ⟨hholds, hholds⟩

/-- The theorem on that history. -/
theorem rollback_restores_redeployed : ∃ s, s.deployed ≠ [] ∧
    (RollbackRestores s ↔ PredecessorAsBuilt s) := by
  obtain ⟨s, d, rest, hreaches, hd, _⟩ := web_redeployed
  exact ⟨s, hd ▸ List.cons_ne_nil d rest,
    rollback_restores_iff deployHost emptyHistory s emptyHistory_begins hreaches⟩

/-- A rollback that reports success may have restarted the very instance that it should undo. -/
theorem rollback_restores_fails : ¬ ∀ (host : DeployHost) (s₀ s : ProxmoxHistory), s₀.Begins →
    (proxmoxMachine host).Reaches Automaton.anyEvent s₀ s → RollbackRestores s := by
  intro h
  obtain ⟨s, d, rest, hreaches, hd, hself, hsome, hcarries⟩ := web_redeployed
  have hrestores := h deployHost emptyHistory s emptyHistory_begins hreaches d rest hd
  have hkept := historyKept_of_reaches emptyHistory_begins hreaches
  obtain ⟨p, _, _, hother, _⟩ := (restores_iff hkept hd hsome hcarries).mp hrestores
  exact hother hself

end Redeploy

end Homelab
