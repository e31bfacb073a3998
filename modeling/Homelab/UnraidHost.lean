import Homelab.DeployRuns
import Homelab.UnraidBackend
import Mathlib.Logic.Function.Basic

/-! An Unraid host under the calls of its client: its containers, the files of records and the
clock. -/
namespace Homelab
open Js Dialogue

/-! ### The host -/

/-- A container with the configuration that it was added with. One that has been started may
take its time to run, and may exit again. -/
structure Container where
  config : JsValue
  started : Bool
  running : Bool

def Container.halt (c : Container) : Container := { c with started := false, running := false }

def Container.start (up : Bool) (c : Container) : Container := { c with started := true, running := up }

/-- The containers of the host by their names, which of the observed calls of `addContainer` each
of them is from, if from any, and how many there have been. -/
structure UnraidWorld where
  containers : JsString → Option Container
  addedBy : JsString → Option ℕ
  adds : ℕ
  files : JsString → Option Signed
  clock : ℕ

/-- The name in a configuration; emhttp takes no container without one. -/
def containerName (config : JsValue) : Option JsString :=
  match property (js "name") config with
  | .str s => some s
  | _ => none

namespace UnraidWorld

variable (w : UnraidWorld)

/-- The container of a name is changed, if there is one. -/
def alter (name : JsString) (change : Container → Option Container) : UnraidWorld :=
  { w with containers := Function.update w.containers name ((w.containers name).bind change) }

def stop (name : JsString) : UnraidWorld := w.alter name fun c => some c.halt

def remove (name : JsString) : UnraidWorld := w.alter name fun _ => none

def start (name : JsString) (up : Bool) : UnraidWorld := w.alter name fun c => some (c.start up)

/-- A container takes the place of one of its name. -/
def add (config : JsValue) : UnraidWorld :=
  match containerName config with
  | none => { w with adds := w.adds+1 }
  | some name =>
    { w with
      containers := Function.update w.containers name (some ⟨config, false, false⟩)
      addedBy := Function.update w.addedBy name (some w.adds)
      adds := w.adds+1 }

def write (path : JsString) (signed : Signed) : UnraidWorld :=
  { w with files := Function.update w.files path (some signed) }

/-- Time passes, in which a container that has been started may come up or exit. -/
structure Waits (ms : ℕ) (w' : UnraidWorld) : Prop where
  containers : ∀ name, Option.Rel (fun c c' : Container => c'.config = c.config ∧
    c'.started = c.started ∧ (c.started = false → c'.running = c.running))
    (w.containers name) (w'.containers name)
  addedBy : w'.addedBy = w.addedBy
  adds : w'.adds = w.adds
  files : w'.files = w.files
  clock : w'.clock = w.clock+ms

end UnraidWorld

/-! ### Answers of the host -/

/-- A call that is answered takes effect; one that is rejected may have taken effect or not. -/
def Settled {α : Type} (mayReject : Prop) (takes misses : Prop) : Except DeployFailure α → Prop
  | .ok _ => takes
  | .error _ => mayReject ∧ (takes ∨ misses)

/-- What the host does on a question. The clock only goes forward and reads times that a date
can hold, and an inspection that is answered tells the truth. -/
def UnraidStep (host : DeployHost) (mayReject : DeployAsk → Prop) (w : UnraidWorld) :
    ∀ q, DeployAnswer q → UnraidWorld → Prop
  | .now, t, w' => w.clock ≤ t ∧ (∃ text, host.isoString t = .ok text) ∧ w' = { w with clock := t }
  | .sleep ms, _, w' => w.Waits ms w'
  | .inspectContainer name, .ok report, w' =>
    report.map ContainerInspect.running = (w.containers name.coerce).map Container.running ∧ w' = w
  | .stopContainer name, a, w' =>
    Settled (mayReject (.stopContainer name)) (w' = w.stop name.coerce) (w' = w) a
  | .removeContainer name, a, w' =>
    Settled (mayReject (.removeContainer name)) (w' = w.remove name.coerce) (w' = w) a
  | .addContainer config, a, w' =>
    Settled (mayReject (.addContainer config)) (w' = w.add config) (w' = { w with adds := w.adds+1 }) a
  | .startContainer name, a, w' =>
    Settled (mayReject (.startContainer name)) (∃ up, w' = w.start name.coerce up) (w' = w) a
  | .writeRecord path signed, a, w' =>
    Settled (mayReject (.writeRecord path signed)) (w' = w.write path signed) (w' = w) a
  | _, _, w' => w' = w

variable {host : DeployHost} {mayReject : DeployAsk → Prop} {α : Type}
  {P : UnraidWorld → Prop} {Q : α → UnraidWorld → Prop} {E : DeployStop → UnraidWorld → Prop}

theorem triple_now {Q : ℕ → UnraidWorld → Prop} (h : ∀ w t, P w → w.clock ≤ t →
    (∃ text, host.isoString t = .ok text) → Q t { w with clock := t }) :
    Triple (UnraidStep host mayReject) P Deploy.now Q E := by
  apply triple_ask
  intro t
  apply triple_done
  rintro _ ⟨w, hp, hlater, hdate, rfl⟩
  exact h w t hp hlater hdate

theorem triple_sleep {ms : ℕ} {Q : Unit → UnraidWorld → Prop}
    (h : ∀ w w', P w → w.Waits ms w' → Q () w') :
    Triple (UnraidStep host mayReject) P (Deploy.sleep ms) Q E := by
  apply triple_ask
  intro a
  apply triple_done
  rintro w' ⟨w, hp, hwaits⟩
  exact h w w' hp hwaits

/-! ### Polling -/

/-- What waiting does not change. -/
structure Steady (P : UnraidWorld → Prop) : Prop where
  clock : ∀ w t, P w → P { w with clock := t }
  waits : ∀ w w' ms, P w → w.Waits ms w' → P w'

variable {name : JsValue} {deadline turns : ℕ}

/-- The container is seen running. -/
def SeenRunning (P : UnraidWorld → Prop) (name : JsValue) (_ : Unit) (w : UnraidWorld) : Prop :=
  P w ∧ (w.containers name.coerce).any Container.running = true

/-- Something is thrown, and the loop has come to its end. -/
def GivenUp (P : UnraidWorld → Prop) (e : DeployStop) (w : UnraidWorld) : Prop := P w ∧ e ≠ .polling

/-- One turn of the loop: a turn that waits takes two seconds. -/
theorem triple_awaitTurn (hP : Steady P)
    (hrest : Triple (UnraidStep host mayReject)
      (fun w => P w ∧ deadline+2000 ≤ w.clock+2000*turns ∧ w.clock < deadline+2000)
      (awaitContainer name deadline turns) (SeenRunning P name) (GivenUp P)) :
    Triple (UnraidStep host mayReject) (fun w => P w ∧ deadline ≤ w.clock+2000*turns)
      (awaitContainer name deadline (turns+1)) (SeenRunning P name) (GivenUp P) := by
  rw [awaitContainer]
  -- one turn of the loop is two seconds of the clock, so the bound on the turns left is kept
  apply triple_bind (R := fun t w => P w ∧ w.clock = t ∧ deadline ≤ t+2000*turns)
  · apply triple_now
    rintro w t ⟨hp, hturns⟩ hlater _
    exact ⟨hP.clock w t hp, rfl, by omega⟩
  · intro t
    split_ifs with hearly
    · apply triple_bind (R := fun (report : Option ContainerInspect) w =>
        (P w ∧ w.clock = t ∧ deadline ≤ t+2000*turns) ∧
          report.any ContainerInspect.running = (w.containers name.coerce).any Container.running)
      · apply triple_call (q := .inspectContainer name)
        · intro w w' a report hw hstep hanswer
          change a = .ok report at hanswer
          subst hanswer
          obtain ⟨htrue, rfl⟩ := hstep
          refine ⟨hw, ?_⟩
          have hany := congrArg (Option.any id) htrue
          rw [Option.any_map, Option.any_map] at hany
          exact hany
        · intro w w' a e hw hstep hanswer
          change a = .error e at hanswer
          subst hanswer
          obtain rfl : w' = w := hstep
          exact ⟨hw.1, by simp⟩
      · intro report
        split_ifs with hrunning
        · apply triple_done
          rintro w ⟨hw, hseen⟩
          exact ⟨hw.1, hseen ▸ hrunning⟩
        · apply triple_bind (R := fun _ w =>
            P w ∧ deadline+2000 ≤ w.clock+2000*turns ∧ w.clock < deadline+2000)
          · apply triple_sleep
            rintro w w' ⟨⟨hp, hclock, hturns⟩, _⟩ hwaits
            have hlater := hwaits.clock
            exact ⟨hP.waits w w' _ hp hwaits, by omega, by omega⟩
          · intro _
            exact hrest
    · apply triple_bind (R := fun _ w => P w)
      · apply triple_templateOf
        · exact fun w hw => hw.1
        · exact fun w hw => ⟨hw.1, by simp⟩
      · intro text
        exact triple_fail fun w hw => ⟨hw, by simp⟩

/-- A poll loop with a turn for every two seconds comes to its end. -/
theorem triple_awaitContainer (hP : Steady P) :
    Triple (UnraidStep host mayReject) (fun w => P w ∧ deadline ≤ w.clock+2000*turns)
      (awaitContainer name deadline (turns+1)) (SeenRunning P name) (GivenUp P) := by
  induction turns with
  | zero =>
    apply triple_awaitTurn hP
    -- the loop is not entered again
    rintro w r w' ⟨_, hlate, hearly⟩ _
    omega
  | succ turns ih =>
    apply triple_awaitTurn hP
    refine ih.weaken ?_ (fun _ _ h => h) fun _ _ h => h
    rintro w ⟨hp, hturns, _⟩
    exact ⟨hp, by omega⟩

theorem triple_pollForRunning (hP : Steady P) (hturns : 31 ≤ turns) :
    Triple (UnraidStep host mayReject) P (pollForRunning turns name) (SeenRunning P name)
      (GivenUp P) := by
  obtain ⟨k, rfl⟩ : ∃ k, turns = k+1 := ⟨turns-1, by omega⟩
  apply triple_bind (R := fun t w => P w ∧ w.clock = t)
  · apply triple_now
    exact fun w t hp _ _ => ⟨hP.clock w t hp, rfl⟩
  · intro t
    refine (triple_awaitContainer hP).weaken ?_ (fun _ _ h => h) fun _ _ h => h
    rintro w ⟨hp, rfl⟩
    exact ⟨hp, by omega⟩

end Homelab
