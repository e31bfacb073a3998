import Homelab.DeployRuns
import Homelab.ProxmoxBackend
import Mathlib.Logic.Function.Basic

/-! Proxmox nodes under the commands of their client: their instances, the files of records and
the clock. -/
namespace Homelab
open Js Path Dialogue

/-! ### Nodes -/

/-- A container or a VM, under the tool of its kind. Which creation it is from tells it apart
from what has been or will be under the same vmid. -/
structure Instance where
  tool : JsString
  made : ℕ
  started : Bool
  running : Bool

/-- What starting and stopping do not change. -/
def Instance.identity (i : Instance) : JsString × ℕ := (i.tool, i.made)

/-- A vmid on a node. -/
abbrev InstancePlace := JsString × JsString

/-- The instances of all nodes, the node of the open connection, the number of creations, the
files and the clock. -/
structure ProxmoxWorld where
  instances : InstancePlace → Option Instance
  connected : JsString
  created : ℕ
  files : JsString → Option Signed
  clock : ℕ

/-- What a command does to an instance. -/
inductive NodeCommand
  | create (tool vmid : JsString)
  | start (tool vmid : JsString)
  | stop (tool vmid : JsString)
  | status (tool vmid : JsString)
  | other

/-- `pct create 101 ...`, and so on. -/
def nodeCommand : List JsString → NodeCommand
  | tool :: verb :: vmid :: _ =>
    if verb = js "create" then .create tool vmid
    else if verb = js "start" then .start tool vmid
    else if verb = js "stop" then .stop tool vmid
    else if verb = js "status" then .status tool vmid
    else .other
  | _ => .other

namespace ProxmoxWorld

variable (w : ProxmoxWorld)

def create (place : InstancePlace) (tool : JsString) : ProxmoxWorld :=
  { w with
    instances := Function.update w.instances place (some ⟨tool, w.created, false, false⟩)
    created := w.created+1 }

def alter (place : InstancePlace) (change : Instance → Instance) : ProxmoxWorld :=
  { w with instances := Function.update w.instances place ((w.instances place).map change) }

def start (place : InstancePlace) (up : Bool) : ProxmoxWorld :=
  w.alter place fun i => { i with started := true, running := up }

def stop (place : InstancePlace) : ProxmoxWorld :=
  w.alter place fun i => { i with started := false, running := false }

/-- Someone destroys the instance, which frees the vmid. -/
def remove (place : InstancePlace) : ProxmoxWorld :=
  { w with instances := Function.update w.instances place none }

variable {w} in
theorem alter_self {place : InstancePlace} {change : Instance → Instance} :
    (w.alter place change).instances place = (w.instances place).map change :=
  Function.update_self ..

variable {w} in
theorem alter_of_ne {place other : InstancePlace} {change : Instance → Instance}
    (h : other ≠ place) : (w.alter place change).instances other = w.instances other :=
  Function.update_of_ne h ..

variable {w} in
theorem create_self {place : InstancePlace} {tool : JsString} :
    (w.create place tool).instances place = some ⟨tool, w.created, false, false⟩ :=
  Function.update_self ..

variable {w} in
theorem create_of_ne {place other : InstancePlace} {tool : JsString} (h : other ≠ place) :
    (w.create place tool).instances other = w.instances other :=
  Function.update_of_ne h ..

def write (path : JsString) (signed : Signed) : ProxmoxWorld :=
  { w with files := Function.update w.files path (some signed) }

variable {w} in
theorem remove_self {place : InstancePlace} : (w.remove place).instances place = none :=
  Function.update_self ..

variable {w} in
theorem write_self {path : JsString} {signed : Signed} :
    (w.write path signed).files path = some signed := Function.update_self ..

/-- An instance of this kind is there. -/
def Holds (place : InstancePlace) (tool : JsString) : Prop :=
  ∃ i, w.instances place = some i ∧ i.tool = tool

/-- The command has its effect. A vmid that is taken is not created again, and `pct` and `qm`
only know the instances of their own kind. -/
def Effect (command : NodeCommand) (w' : ProxmoxWorld) : Prop :=
  match command with
  | .create tool vmid =>
    w.instances (w.connected, vmid) = none ∧ w' = w.create (w.connected, vmid) tool
  | .start tool vmid =>
    w.Holds (w.connected, vmid) tool ∧ ∃ up, w' = w.start (w.connected, vmid) up
  | .stop tool vmid => w.Holds (w.connected, vmid) tool ∧ w' = w.stop (w.connected, vmid)
  | .status tool vmid => w.Holds (w.connected, vmid) tool ∧ w' = w
  | .other => w' = w

/-- A status that is given tells the truth. -/
def Truthful (command : NodeCommand) (result : CommandResult) : Prop :=
  match command with
  | .status _ vmid => js "running" <:+: lowerCase result.stdout ↔
      (w.instances (w.connected, vmid)).any Instance.running = true
  | _ => True

/-- Time passes, in which an instance that has been started may come up or go down. -/
structure Waits (ms : ℕ) (w' : ProxmoxWorld) : Prop where
  instances : ∀ place, Option.Rel (fun i i' : Instance => i'.tool = i.tool ∧ i'.made = i.made ∧
    i'.started = i.started ∧ (i.started = false → i'.running = i.running))
    (w.instances place) (w'.instances place)
  connected : w'.connected = w.connected
  created : w'.created = w.created
  files : w'.files = w.files
  clock : w'.clock = w.clock+ms

end ProxmoxWorld

/-- What is read of a file: what `JSON.parse` makes of the text that was written. -/
def ReadBack : Option Signed → Option JsValue → Prop
  | none, file => file = none
  | some signed, file => ∃ raw, reread signed = .ok (some raw) ∧ file = some raw

/-- What the nodes and the files do on a question. A command that succeeds has its effect; one
that fails may have it. -/
def ProxmoxStep (w : ProxmoxWorld) : ∀ q, DeployAnswer q → ProxmoxWorld → Prop
  | .now, t, w' => w.clock ≤ t ∧ w' = { w with clock := t }
  | .sleep ms, _, w' => w.Waits ms w'
  | .getConnection id, .ok _, w' => w' = { w with connected := id.coerce }
  | .exec words, .ok result, w' =>
    if result.exitCode = 0 then w.Effect (nodeCommand words) w' ∧ w.Truthful (nodeCommand words) result
    else w' = w ∨ w.Effect (nodeCommand words) w'
  | .exec words, .error _, w' => w' = w ∨ w.Effect (nodeCommand words) w'
  | .readRecord path, .ok file, w' => ReadBack (w.files path) file ∧ w' = w
  | .writeRecord path signed, .ok _, w' => w' = w.write path signed
  | .writeRecord path signed, .error _, w' => w' = w ∨ w' = w.write path signed
  | _, _, w' => w' = w

/-! ### What only grows -/

/-- Every instance is of a creation that has been counted. -/
def Numbered (w : ProxmoxWorld) : Prop := ∀ place i, w.instances place = some i → i.made < w.created

/-- An instance has been there before, or has been created since. -/
structure Later (w w' : ProxmoxWorld) : Prop where
  created : w.created ≤ w'.created
  instances : ∀ place i', w'.instances place = some i' →
    (∃ i, w.instances place = some i ∧ i.made = i'.made) ∨
      (w.created ≤ i'.made ∧ i'.made < w'.created)

variable {w w' w'' : ProxmoxWorld}

theorem Later.refl (w : ProxmoxWorld) : Later w w := ⟨le_rfl, fun _ i hi => Or.inl ⟨i, hi, rfl⟩⟩

theorem Later.trans (h : Later w w') (h' : Later w' w'') : Later w w'' := by
  refine ⟨h.created.trans h'.created, fun place i'' hi'' => ?_⟩
  rcases h'.instances place i'' hi'' with ⟨i', hi', hmade⟩ | ⟨hlow, hhigh⟩
  · rw [← hmade]
    rcases h.instances place i' hi' with hold | ⟨hlow, hhigh⟩
    · exact Or.inl hold
    · exact Or.inr ⟨hlow, hhigh.trans_le h'.created⟩
  · exact Or.inr ⟨h.created.trans hlow, hhigh⟩

theorem Later.numbered (h : Later w w') (hnumbered : Numbered w) : Numbered w' := by
  intro place i' hi'
  rcases h.instances place i' hi' with ⟨i, hi, hmade⟩ | ⟨_, hhigh⟩
  · rw [← hmade]
    exact (hnumbered place i hi).trans_le h.created
  · exact hhigh

/-- The instances are the same ones, whether they run or not. -/
structure SameMade (w w' : ProxmoxWorld) : Prop where
  instances : ∀ place,
    (w'.instances place).map Instance.identity = (w.instances place).map Instance.identity
  created : w'.created = w.created

theorem SameMade.instance {place : InstancePlace} {i' : Instance} (h : SameMade w w')
    (hi : w'.instances place = some i') :
    ∃ i, w.instances place = some i ∧ i.tool = i'.tool ∧ i.made = i'.made := by
  have hidentity := h.instances place
  rw [hi] at hidentity
  obtain ⟨i, hfound, hsame⟩ := Option.map_eq_some_iff.mp hidentity.symm
  exact ⟨i, hfound, congrArg Prod.fst hsame, congrArg Prod.snd hsame⟩

theorem SameMade.symm (h : SameMade w w') : SameMade w' w :=
  ⟨fun place => (h.instances place).symm, h.created.symm⟩

theorem SameMade.trans (h : SameMade w w') (h' : SameMade w' w'') : SameMade w w'' :=
  ⟨fun place => (h'.instances place).trans (h.instances place), h'.created.trans h.created⟩

theorem SameMade.holds {place : InstancePlace} {tool : JsString} (h : SameMade w w')
    (hholds : w'.Holds place tool) : w.Holds place tool := by
  obtain ⟨i', hi', htool⟩ := hholds
  obtain ⟨i, hi, hsame, _⟩ := h.instance hi'
  exact ⟨i, hi, hsame.trans htool⟩

theorem SameMade.later (h : SameMade w w') : Later w w' := by
  refine ⟨h.created.ge, fun place i' hi' => Or.inl ?_⟩
  obtain ⟨i, hi, _, hmade⟩ := h.instance hi'
  exact ⟨i, hi, hmade⟩

theorem sameMade_alter {place : InstancePlace} {change : Instance → Instance}
    (h : ∀ i, (change i).identity = i.identity) : SameMade w (w.alter place change) := by
  refine ⟨fun other => ?_, rfl⟩
  by_cases hother : other = place
  · subst hother
    rw [ProxmoxWorld.alter_self, Option.map_map]
    exact congrArg (fun f => (w.instances other).map f) (funext h)
  · rw [ProxmoxWorld.alter_of_ne hother]

theorem sameMade_start {place : InstancePlace} {up : Bool} : SameMade w (w.start place up) :=
  sameMade_alter fun _ => rfl

theorem sameMade_stop {place : InstancePlace} : SameMade w (w.stop place) :=
  sameMade_alter fun _ => rfl

theorem create_later {place : InstancePlace} {tool : JsString} : Later w (w.create place tool) := by
  refine ⟨Nat.le_succ _, fun other i hi => ?_⟩
  by_cases hother : other = place
  · subst hother
    rw [ProxmoxWorld.create_self] at hi
    obtain rfl := Option.some.inj hi
    exact Or.inr ⟨le_rfl, Nat.lt_succ_self _⟩
  · rw [ProxmoxWorld.create_of_ne hother] at hi
    exact Or.inl ⟨i, hi, rfl⟩

theorem remove_later {place : InstancePlace} : Later w (w.remove place) := by
  refine ⟨le_rfl, fun other i hi => ?_⟩
  change Function.update w.instances place none other = some i at hi
  by_cases hother : other = place
  · rw [hother, Function.update_self] at hi
    cases hi
  · rw [Function.update_of_ne hother] at hi
    exact Or.inl ⟨i, hi, rfl⟩

theorem ProxmoxWorld.Waits.sameMade {ms : ℕ} (h : w.Waits ms w') : SameMade w w' := by
  refine ⟨fun place => ?_, h.created⟩
  have hplace := h.instances place
  cases hi : w.instances place with
  | none =>
    rw [hi] at hplace
    cases hi' : w'.instances place with
    | none => rfl
    | some i' =>
      rw [hi'] at hplace
      cases hplace
  | some i =>
    rw [hi] at hplace
    cases hi' : w'.instances place with
    | none =>
      rw [hi'] at hplace
      cases hplace
    | some i' =>
      rw [hi'] at hplace
      cases hplace with
      | some hsettled => exact congrArg some (Prod.ext hsettled.1 hsettled.2.1)

theorem sameMade_refl : SameMade w w := ⟨fun _ => rfl, rfl⟩

theorem effect_later {command : NodeCommand} (h : w.Effect command w') : Later w w' := by
  cases command with
  | create tool vmid =>
    obtain ⟨_, rfl⟩ := h
    exact create_later
  | start tool vmid =>
    obtain ⟨_, up, rfl⟩ := h
    exact sameMade_start.later
  | stop tool vmid =>
    obtain ⟨_, rfl⟩ := h
    exact sameMade_stop.later
  | status tool vmid =>
    obtain ⟨_, rfl⟩ := h
    exact .refl w'
  | other =>
    obtain rfl : w' = w := h
    exact .refl w'

/-- Whatever a command answers, it has had its effect or none. -/
theorem exec_cases {words : List JsString} {a : DeployAnswer (.exec words)}
    (h : ProxmoxStep w (.exec words) a w') : w' = w ∨ w.Effect (nodeCommand words) w' := by
  cases a with
  | ok result =>
    change if result.exitCode = 0 then _ else _ at h
    split_ifs at h
    · exact .inr h.1
    · exact h
  | error e => exact h

/-! ### Files of records -/

theorem safeKey_plain {key : JsString} (h : safeKey key = true) : Plain (key ++ js ".json") := by
  rw [safeKey, Bool.and_eq_true] at h
  obtain ⟨hnonempty, hunits⟩ := h
  refine ⟨by simp [js], ?_, ?_, ?_⟩
  · intro hdot
    have hlength := congrArg List.length hdot
    rw [List.length_append] at hlength
    revert hlength
    simp [js, dot]
  · intro hdotdot
    have hlength := congrArg List.length hdotdot
    rw [List.length_append] at hlength
    revert hlength
    simp [js, dotdot]
  · intro hslash
    rcases List.mem_append.mp hslash with hkey | hsuffix
    · have hunit := List.all_eq_true.mp hunits slash hkey
      revert hunit
      decide
    · revert hsuffix
      decide

/-- The file of a record tells its key. -/
theorem recordPath_inj {host : DeployHost} {platform key key' path : JsString}
    (h : recordPath host platform key = .ok path) (h' : recordPath host platform key' = .ok path) :
    key = key' := by
  rw [recordPath] at h h'
  split_ifs at h h' with hkey hkey'
  have hsame := (Except.ok.inj h).trans (Except.ok.inj h').symm
  have hlocate := congrArg (locate []) hsame
  rw [locate_join (safeKey_plain hkey), locate_join (safeKey_plain hkey')] at hlocate
  have hnames := List.append_cancel_left hlocate
  exact List.append_cancel_right (List.cons.inj hnames).1

/-- What a file holds is a signed record that has the vmid of its name. -/
def WrittenFor (host : DeployHost) (path : JsString) (signed : Signed) : Prop :=
  ∃ fs d, LiveValue.WellOrdered (.obj fs) ∧ (js "vmid", .num (.fin d)) ∈ fs ∧
    proxmoxRecordPath host (.fin d) = .ok path ∧
      signPayload host.toHmacHost (.ofJs (.obj fs)) = .ok signed

def FilesKept (host : DeployHost) (w : ProxmoxWorld) : Prop :=
  ∀ path signed, w.files path = some signed → WrittenFor host path signed

/-- All that is written is such a record. -/
def WritesKept (host : DeployHost) : DeployAsk → Prop
  | .writeRecord path signed => WrittenFor host path signed
  | _ => True

variable {host : DeployHost}

/-- A command changes the instances alone. -/
theorem effect_frame {command : NodeCommand} (h : w.Effect command w') :
    w'.files = w.files ∧ w'.connected = w.connected := by
  cases command with
  | create tool vmid =>
    obtain ⟨_, rfl⟩ := h
    exact ⟨rfl, rfl⟩
  | start tool vmid =>
    obtain ⟨_, up, rfl⟩ := h
    exact ⟨rfl, rfl⟩
  | stop tool vmid =>
    obtain ⟨_, rfl⟩ := h
    exact ⟨rfl, rfl⟩
  | status tool vmid =>
    obtain ⟨_, rfl⟩ := h
    exact ⟨rfl, rfl⟩
  | other =>
    obtain rfl : w' = w := h
    exact ⟨rfl, rfl⟩

/-- A command does not change the connection. -/
theorem exec_connected {words : List JsString} {a : DeployAnswer (.exec words)}
    (h : ProxmoxStep w (.exec words) a w') : w'.connected = w.connected := by
  rcases exec_cases h with rfl | heffect
  · rfl
  · exact (effect_frame heffect).2

theorem filesKept_write {path : JsString} {signed : Signed} (hfiles : FilesKept host w)
    (hwritten : WrittenFor host path signed) : FilesKept host (w.write path signed) := by
  intro other signed' hother
  change Function.update w.files path (some signed) other = some signed' at hother
  by_cases hsame : other = path
  · subst hsame
    rw [Function.update_self] at hother
    exact Option.some.inj hother ▸ hwritten
  · rw [Function.update_of_ne hsame] at hother
    exact hfiles other signed' hother

theorem step_files {q : DeployAsk} {a : DeployAnswer q} (hfiles : FilesKept host w)
    (hq : WritesKept host q) (h : ProxmoxStep w q a w') : FilesKept host w' := by
  have hsame (hw : w'.files = w.files) : FilesKept host w' := by
    rw [FilesKept, hw]
    exact hfiles
  cases q with
  | now =>
    obtain ⟨_, rfl⟩ := h
    exact hfiles
  | sleep ms => exact hsame (ProxmoxWorld.Waits.files h)
  | getConnection id =>
    cases a with
    | ok u =>
      obtain rfl : w' = { w with connected := id.coerce } := h
      exact hfiles
    | error e => exact hsame (congrArg ProxmoxWorld.files (show w' = w from h))
  | exec words =>
    rcases exec_cases h with rfl | heffect
    · exact hfiles
    · exact hsame (effect_frame heffect).1
  | readRecord path =>
    cases a with
    | ok file => exact hsame (congrArg ProxmoxWorld.files h.2)
    | error e => exact hsame (congrArg ProxmoxWorld.files (show w' = w from h))
  | writeRecord path signed =>
    cases a with
    | ok u =>
      obtain rfl : w' = w.write path signed := h
      exact filesKept_write hfiles hq
    | error e =>
      rcases h with hw | rfl
      · exact hsame (congrArg ProxmoxWorld.files hw)
      · exact filesKept_write hfiles hq
  | _ => exact hsame (congrArg ProxmoxWorld.files (show w' = w from h))

theorem plays_files {α : Type} {m : Deploy α} {r : Except DeployStop α} (hfiles : FilesKept host w)
    (hm : m.Asks (WritesKept host)) (h : Plays ProxmoxStep m w r w') : FilesKept host w' := by
  induction h with
  | done a s => exact hfiles
  | fail e s => exact hfiles
  | ask hstep _ ih => exact ih (step_files hfiles hm.1 hstep) (hm.2 _)

/-- The vmid of a record that is read back has the text of the one that was written. -/
theorem readBack_vmid {path : JsString} {vmid : JsNumber} {file : Option JsValue} {raw : JsValue}
    (hfiles : FilesKept host w) (hpath : proxmoxRecordPath host vmid = .ok path)
    (hread : ReadBack (w.files path) file) (hraw : file = some raw) :
    ∃ x, property (js "vmid") (property (js "payload") raw) = .num x ∧ x.toText = vmid.toText := by
  subst hraw
  cases hfile : w.files path with
  | none =>
    rw [hfile] at hread
    cases hread
  | some signed =>
    rw [hfile] at hread
    obtain ⟨raw', hreread, hsame⟩ := hread
    obtain rfl := Option.some.inj hsame
    obtain ⟨fs, d, hordered, hmem, hkey, hsign⟩ := hfiles path signed hfile
    have htext : JsNumber.toText (.fin d) = vmid.toText := recordPath_inj hkey hpath
    obtain ⟨gs, hwritten, rfl⟩ := reread_object hordered hsign hreread
    have hmem' : (js "vmid", LiveValue.ofJs (.num (.fin d))) ∈ LiveValue.ofJsFields fs := by
      rw [LiveValue.ofJsFields_eq]
      exact List.mem_map_of_mem (f := fun f => (f.1, LiveValue.ofJs f.2)) hmem
    obtain ⟨r, hr, hproperty⟩ := property_written hordered hwritten hmem'
    obtain rfl := Except.ok.inj hr
    refine ⟨.fin d.posZero, ?_, ?_⟩
    · rw [property_payload]
      exact hproperty
    · rw [← htext]
      exact Decimal.toText_posZero d

/-! ### Runs that create nothing -/

/-- No instance is created. -/
def CreatesNothing : DeployAsk → Prop
  | .exec words => ∀ tool vmid, nodeCommand words ≠ .create tool vmid
  | _ => True

theorem effect_sameMade {command : NodeCommand} (hcommand : ∀ tool vmid, command ≠ .create tool vmid)
    (h : w.Effect command w') : SameMade w w' := by
  cases command with
  | create tool vmid => exact absurd rfl (hcommand tool vmid)
  | start tool vmid =>
    obtain ⟨_, up, rfl⟩ := h
    exact sameMade_start
  | stop tool vmid =>
    obtain ⟨_, rfl⟩ := h
    exact sameMade_stop
  | status tool vmid =>
    obtain ⟨_, rfl⟩ := h
    exact sameMade_refl
  | other =>
    obtain rfl : w' = w := h
    exact sameMade_refl

theorem step_sameMade {q : DeployAsk} {a : DeployAnswer q} (hq : CreatesNothing q)
    (h : ProxmoxStep w q a w') : SameMade w w' := by
  have hsame (hw : w' = w) : SameMade w w' := by
    rw [hw]
    exact sameMade_refl
  cases q with
  | now =>
    obtain ⟨_, rfl⟩ := h
    exact ⟨fun _ => rfl, rfl⟩
  | sleep ms => exact ProxmoxWorld.Waits.sameMade h
  | getConnection id =>
    cases a with
    | ok u =>
      obtain rfl : w' = { w with connected := id.coerce } := h
      exact ⟨fun _ => rfl, rfl⟩
    | error e => exact hsame h
  | exec words => exact (exec_cases h).elim hsame (effect_sameMade hq)
  | readRecord path =>
    cases a with
    | ok file => exact hsame h.2
    | error e => exact hsame h
  | writeRecord path signed =>
    cases a with
    | ok u =>
      obtain rfl : w' = w.write path signed := h
      exact ⟨fun _ => rfl, rfl⟩
    | error e =>
      rcases h with hw | rfl
      · exact hsame hw
      · exact ⟨fun _ => rfl, rfl⟩
  | _ => exact hsame h

theorem plays_sameMade {α : Type} {m : Deploy α} {r : Except DeployStop α}
    (hm : m.Asks CreatesNothing) (h : Plays ProxmoxStep m w r w') : SameMade w w' := by
  induction h with
  | done a s => exact sameMade_refl
  | fail e s => exact sameMade_refl
  | ask hstep _ ih => exact (step_sameMade hm.1 hstep).trans (ih (hm.2 _))

/-- Whatever is asked and answered, instances are only made later. -/
theorem step_later {q : DeployAsk} {a : DeployAnswer q} (h : ProxmoxStep w q a w') : Later w w' := by
  by_cases hq : CreatesNothing q
  · exact (step_sameMade hq h).later
  · cases q with
    | exec words =>
      rcases exec_cases h with rfl | heffect
      · exact .refl w'
      · exact effect_later heffect
    | _ => exact absurd trivial hq

theorem plays_later {α : Type} {m : Deploy α} {r : Except DeployStop α}
    (h : Plays ProxmoxStep m w r w') : Later w w' := by
  induction h with
  | done a s => exact .refl s
  | fail e s => exact .refl s
  | ask hstep _ ih => exact (step_later hstep).trans ih

end Homelab
