import Homelab.Host
import Homelab.Protocol

/-! `atomicWriteFile`, for calls that run side by side on any targets, with every step of the file system and every
pattern of failures. -/
namespace Homelab
open Js Dialogue

/-! ### Questions -/

/-- What a call asks of the file system and of the random generator. A temporary file is named by its target and
its suffix. -/
inductive WriteAsk
  | mkdir (target : JsString)
  | randomSuffix
  | openTemp (target suffix : JsString) (mode : ℕ)
  | writeTemp (target suffix : JsString) (contents : Bytes)
  | syncTemp (target suffix : JsString)
  | closeTemp (target suffix : JsString)
  | renameTemp (target suffix : JsString)
  | openDirectory (target : JsString)
  | syncDirectory (target : JsString)
  | closeDirectory (target : JsString)
  | unlinkTemp (target suffix : JsString)

abbrev WriteReply : WriteAsk → Type
  | .randomSuffix => JsString
  | _ => Except ErrnoException Unit

abbrev WriteProgram := Dialogue WriteReply ErrnoException

/-- The arguments of a call; `contents` are the bytes of a text or of an array. -/
structure FileWrite where
  target : JsString
  contents : Bytes
  mode : ℕ := 0o644

/-! ### `atomicWriteFile` -/

def writeQuestion (q : WriteAsk) : WriteProgram (WriteReply q) := put q

namespace FileWrite

variable (w : FileWrite)

/-- The `catch`; the handle is closed first if it is still open. -/
def discard (suffix : JsString) (handle : Bool) (e : ErrnoException) : WriteProgram Unit := do
  if handle then
    let _ ← writeQuestion (.closeTemp w.target suffix)
    let _ ← writeQuestion (.unlinkTemp w.target suffix)
    .fail e
  else
    let _ ← writeQuestion (.unlinkTemp w.target suffix)
    .fail e

/-- The temporary file, from the first byte to its `close` -/
def fill (suffix : JsString) : WriteProgram Unit := do
  give (← writeQuestion (.writeTemp w.target suffix w.contents))
  give (← writeQuestion (.syncTemp w.target suffix))
  give (← writeQuestion (.closeTemp w.target suffix))

/-- The `fsync` of the directory, of which no error comes out -/
def syncParent : WriteProgram Unit := do
  match ← writeQuestion (.openDirectory w.target) with
  | .error _ => pure ()
  | .ok () =>
    let _ ← writeQuestion (.syncDirectory w.target)
    let _ ← writeQuestion (.closeDirectory w.target)
    pure ()

def atomicWriteFile : WriteProgram Unit := do
  give (← writeQuestion (.mkdir w.target))
  let suffix ← writeQuestion .randomSuffix
  match ← writeQuestion (.openTemp w.target suffix w.mode) with
  | .error e => w.discard suffix false e
  | .ok () =>
    match ← (w.fill suffix).attempt with
    | .error e => w.discard suffix true e
    | .ok () =>
      match ← writeQuestion (.renameTemp w.target suffix) with
      | .error e => w.discard suffix false e
      | .ok () => w.syncParent

end FileWrite

/-! ### The file system -/

/-- The targets, and the temporary files by their targets and suffixes -/
structure WriteDisk where
  files : JsString → Option Bytes
  temps : JsString × JsString → Option Bytes

/-- What may come of a question: the answer, and the disk after it. A write that fails may leave anything in the
temporary file; a step that fails changes nothing else. -/
def WriteDisk.may (s : WriteDisk) : ∀ q, WriteReply q → WriteDisk → Prop
  | .openTemp p x _, .ok (), t =>
    s.temps (p, x) = none ∧ t = { s with temps := Function.update s.temps (p, x) (some []) }
  | .writeTemp p x contents, .ok (), t => t = { s with temps := Function.update s.temps (p, x) (some contents) }
  | .writeTemp p x _, .error _, t => ∃ part, t = { s with temps := Function.update s.temps (p, x) (some part) }
  | .renameTemp p x, .ok (), t =>
    ∃ contents, s.temps (p, x) = some contents ∧
      t = ⟨Function.update s.files p (some contents), Function.update s.temps (p, x) none⟩
  | .unlinkTemp p x, .ok (), t => t = { s with temps := Function.update s.temps (p, x) none }
  | _, _, t => t = s

def writeHost (Task : Type) : Host Task WriteDisk WriteDisk WriteReply where
  may s _ q a t := s.may q a t
  act _ t _ := t

/-! ### The protocol of a call -/

/-- How far a call has come: it has no directory, or a suffix, or a temporary file of that name, that is written,
synced and closed; it has renamed it; a step of it has failed; or it has tried to unlink the file since. -/
inductive WriteStage
  | idle
  | refused (e : ErrnoException)
  | named (suffix : JsString)
  | opened (suffix : JsString)
  | written (suffix : JsString)
  | synced (suffix : JsString)
  | closed (suffix : JsString)
  | renamed (suffix : JsString)
  | broken (suffix : JsString) (e : ErrnoException)
  | discarded (suffix : JsString) (e : ErrnoException) (unlinked : Bool)

/-- The suffix that a call has drawn -/
def WriteStage.suffix : WriteStage → Option JsString
  | .idle => none
  | .refused _ => none
  | .named x => some x
  | .opened x => some x
  | .written x => some x
  | .synced x => some x
  | .closed x => some x
  | .renamed x => some x
  | .broken x _ => some x
  | .discarded x _ _ => some x

/-- The failure of a call whose directory could not be made, or one of whose steps up to the `rename` has failed -/
def WriteStage.failure : WriteStage → Option ErrnoException
  | .refused e => some e
  | .broken _ e => some e
  | .discarded _ e _ => some e
  | _ => none

/-- The stage after a step that fails or leads to `next` -/
def afterStep (x : JsString) (next : WriteStage) : Except ErrnoException Unit → WriteStage
  | .ok () => next
  | .error e => .broken x e

/-- A call has its arguments and a stage. It takes one step after the other with the temporary file that it has
drawn a name for, renames it when it is closed, and unlinks it when a step has failed. -/
def writeProtocol : Discipline WriteReply (FileWrite × WriteStage) where
  permits p q :=
    match q with
    | .mkdir target => target = p.1.target ∧ p.2 = .idle
    | .randomSuffix => p.2 = .idle
    | .openTemp target x _ => target = p.1.target ∧ p.2 = .named x
    | .writeTemp target x contents => target = p.1.target ∧ p.2 = .opened x ∧ contents = p.1.contents
    | .syncTemp target x => target = p.1.target ∧ p.2 = .written x
    | .closeTemp target x => target = p.1.target ∧ (p.2 = .synced x ∨ ∃ e, p.2 = .broken x e)
    | .renameTemp target x => target = p.1.target ∧ p.2 = .closed x
    | .unlinkTemp target x => target = p.1.target ∧ ∃ e, p.2 = .broken x e
    | _ => ∃ x, p.2 = .renamed x
  after p q a :=
    (p.1, match q, a with
      | .mkdir _, .error e => .refused e
      | .randomSuffix, x => .named x
      | .openTemp _ x _, a => afterStep x (.opened x) a
      | .writeTemp _ x _, a => afterStep x (.written x) a
      | .syncTemp _ x, a => afterStep x (.synced x) a
      | .closeTemp _ x, a =>
        match p.2 with
        | .synced _ => afterStep x (.closed x) a
        | stage => stage
      | .renameTemp _ x, a => afterStep x (.renamed x) a
      | .unlinkTemp _ _, a =>
        match p.2 with
        | .broken x e => .discarded x e a.isOk
        | stage => stage
      | _, _ => p.2)

/-- A call returns when it has renamed its file, and throws the failure that it has met. -/
abbrev WriteFollows (p : FileWrite × WriteStage) (m : WriteProgram Unit) : Prop :=
  FollowsFrom writeProtocol (fun p _ => ∃ x, p.2 = .renamed x)
    (fun p e => p.2 = .refused e ∨ ∃ x unlinked, p.2 = .discarded x e unlinked) p m

section Follows

variable {w : FileWrite} {x : JsString}

theorem discard_follows (e : ErrnoException) (handle : Bool) :
    WriteFollows (w, .broken x e) (w.discard x handle e) := by
  cases handle with
  | true => exact ⟨⟨rfl, .inr ⟨e, rfl⟩⟩, fun _ => ⟨⟨rfl, e, rfl⟩, fun _ => .inr ⟨x, _, rfl⟩⟩⟩
  | false => exact ⟨⟨rfl, e, rfl⟩, fun _ => .inr ⟨x, _, rfl⟩⟩

theorem fill_follows :
    FollowsFrom writeProtocol (fun p _ => p = (w, .closed x)) (fun p e => p = (w, .broken x e)) (w, .opened x)
      (w.fill x) := by
  refine ⟨⟨rfl, rfl, rfl⟩, fun written => ?_⟩
  cases written with
  | error e => exact rfl
  | ok =>
    refine ⟨⟨rfl, rfl⟩, fun synced => ?_⟩
    cases synced with
    | error e => exact rfl
    | ok =>
      refine ⟨⟨rfl, .inl rfl⟩, fun closed => ?_⟩
      cases closed with
      | error e => exact rfl
      | ok => exact rfl

theorem syncParent_follows : WriteFollows (w, .renamed x) w.syncParent := by
  refine ⟨⟨x, rfl⟩, fun opened => ?_⟩
  cases opened with
  | error e => exact ⟨x, rfl⟩
  | ok => exact ⟨⟨x, rfl⟩, fun _ => ⟨⟨x, rfl⟩, fun _ => ⟨x, rfl⟩⟩⟩

theorem atomicWriteFile_follows (w : FileWrite) : WriteFollows (w, .idle) w.atomicWriteFile := by
  refine ⟨⟨rfl, rfl⟩, fun made => ?_⟩
  cases made with
  | error e => exact .inl rfl
  | ok =>
    refine ⟨rfl, fun x => ⟨⟨rfl, rfl⟩, fun opened => ?_⟩⟩
    cases opened with
    | error e => exact discard_follows e false
    | ok =>
      change WriteFollows (w, .opened x) ((w.fill x).attempt.bind _)
      apply follows_bind
      apply follows_attempt
      refine fill_follows.mono ?_ ?_
      · rintro _ _ rfl
        refine ⟨⟨rfl, rfl⟩, fun renamed => ?_⟩
        cases renamed with
        | error e => exact discard_follows e false
        | ok => exact syncParent_follows
      · rintro _ e rfl
        exact discard_follows e true

end Follows

/-! ### What holds between the steps -/

/-- What a stage says of the temporary file -/
def WriteStage.Temp (w : FileWrite) (temp : Option Bytes) : WriteStage → Prop
  | .written _ => temp = some w.contents
  | .synced _ => temp = some w.contents
  | .closed _ => temp = some w.contents
  | .renamed _ => temp = none
  | .discarded _ _ true => temp = none
  | _ => True

def Renamed (p : FileWrite × WriteStage) : Prop := ∃ x, p.2 = .renamed x

section Invariant

variable {Task : Type} {calls : Task → FileWrite} {disk s t : WriteDisk} {phase : Task → FileWrite × WriteStage}

/-- A target holds what it held at the start, if no call has renamed a file to it, or else the contents of one
that has. -/
def Contents (calls : Task → FileWrite) (disk s : WriteDisk) (phase : Task → FileWrite × WriteStage)
    (p : JsString) : Prop :=
  (s.files p = disk.files p ∧ ∀ i, (calls i).target = p → ¬Renamed (phase i)) ∨
    ∃ i, (calls i).target = p ∧ Renamed (phase i) ∧ s.files p = some (calls i).contents

/-- The calls keep their arguments, and those on one target have suffixes of their own; each temporary file is as
far as its call, and each target is as it was or whole. -/
structure WholeTargets (calls : Task → FileWrite) (disk s : WriteDisk) (phase : Task → FileWrite × WriteStage) :
    Prop where
  call : ∀ i, (phase i).1 = calls i
  contents : ∀ p, Contents calls disk s phase p
  temps : ∀ i x, (phase i).2.suffix = some x → (phase i).2.Temp (calls i) (s.temps ((calls i).target, x))
  apart : ∀ i j x, i ≠ j → (calls i).target = (calls j).target → (phase i).2.suffix = some x →
    (phase j).2.suffix ≠ some x

variable [DecidableEq Task] {i : Task}

/-- Calls stay apart, and hold what their stages say, when one takes another stage and touches no other temporary
file than its own. -/
theorem WholeTargets.advance (h : WholeTargets calls disk s phase) {stage : WriteStage}
    (htemps : ∀ k, (∀ x, stage.suffix = some x → k ≠ ((calls i).target, x)) → t.temps k = s.temps k)
    (hapart : ∀ x, stage.suffix = some x → ∀ j, i ≠ j → (calls i).target = (calls j).target →
      (phase j).2.suffix ≠ some x)
    (htemp : ∀ x, stage.suffix = some x → stage.Temp (calls i) (t.temps ((calls i).target, x)))
    (hcontents : ∀ p, Contents calls disk t (Function.update phase i ((phase i).1, stage)) p) :
    WholeTargets calls disk t (Function.update phase i ((phase i).1, stage)) := by
  constructor
  case contents => exact hcontents
  case call =>
    intro j
    by_cases hj : j = i
    · rw [hj, Function.update_self]
      exact h.call i
    · rw [Function.update_of_ne hj]
      exact h.call j
  case temps =>
    intro j y hy
    by_cases hj : j = i
    · subst hj
      rw [Function.update_self] at hy ⊢
      exact htemp y hy
    · -- the temporary file of another call has another name
      rw [Function.update_of_ne hj] at hy ⊢
      have hother : ∀ x, stage.suffix = some x → ((calls j).target, y) ≠ ((calls i).target, x) := by
        intro x hx heq
        obtain ⟨htarget, rfl⟩ := Prod.mk.inj heq
        exact hapart y hx j (Ne.symm hj) htarget.symm hy
      rw [htemps _ hother]
      exact h.temps j y hy
  case apart =>
    intro j k y hjk htarget hy hk
    by_cases hj : j = i <;> by_cases hk' : k = i
    · exact hjk (hj.trans hk'.symm)
    · rw [hj, Function.update_self] at hy
      rw [Function.update_of_ne hk'] at hk
      exact hapart y hy k (Ne.symm hk') (hj ▸ htarget) hk
    · rw [hk', Function.update_self] at hk
      rw [Function.update_of_ne hj] at hy
      exact hapart y hk j (Ne.symm hj) (hk' ▸ htarget).symm hy
    · rw [Function.update_of_ne hj] at hy
      rw [Function.update_of_ne hk'] at hk
      exact h.apart j k y hjk htarget hy hk

/-- A turn that renames nothing -/
theorem WholeTargets.turn (h : WholeTargets calls disk s phase) {stage : WriteStage} (hfiles : t.files = s.files)
    (htemps : ∀ k, (∀ x, stage.suffix = some x → k ≠ ((calls i).target, x)) → t.temps k = s.temps k)
    (hapart : ∀ x, stage.suffix = some x → ∀ j, i ≠ j → (calls i).target = (calls j).target →
      (phase j).2.suffix ≠ some x)
    (htemp : ∀ x, stage.suffix = some x → stage.Temp (calls i) (t.temps ((calls i).target, x)))
    (hbefore : ∀ x, (phase i).2 ≠ .renamed x) (hafter : ∀ x, stage ≠ .renamed x) :
    WholeTargets calls disk t (Function.update phase i ((phase i).1, stage)) := by
  have hsame (j : Task) : Renamed (Function.update phase i ((phase i).1, stage) j) ↔ Renamed (phase j) := by
    by_cases hj : j = i
    · rw [hj, Function.update_self]
      exact iff_of_false (fun ⟨x, hx⟩ => hafter x hx) fun ⟨x, hx⟩ => hbefore x hx
    · rw [Function.update_of_ne hj]
  refine h.advance htemps hapart htemp fun p => ?_
  unfold Contents
  simp only [hsame, hfiles]
  exact h.contents p

/-- A turn of a call that keeps its suffix, and touches only its own temporary file -/
theorem WholeTargets.own (h : WholeTargets calls disk s phase) {stage : WriteStage} {x : JsString}
    (hphase : (phase i).2.suffix = some x) (hsuffix : stage.suffix = some x) (hfiles : t.files = s.files)
    (htemps : ∀ k, k ≠ ((calls i).target, x) → t.temps k = s.temps k)
    (htemp : stage.Temp (calls i) (t.temps ((calls i).target, x)))
    (hbefore : ∀ x, (phase i).2 ≠ .renamed x) (hafter : ∀ x, stage ≠ .renamed x) :
    WholeTargets calls disk t (Function.update phase i ((phase i).1, stage)) := by
  have hx {y : JsString} (hy : stage.suffix = some y) : y = x := Option.some.inj (hy.symm.trans hsuffix)
  refine h.turn hfiles (fun k hk => htemps k (hk x hsuffix)) (fun y hy j hij htarget => ?_) (fun y hy => ?_)
    hbefore hafter
  · rw [hx hy]
    exact h.apart i j x hij htarget hphase
  · rw [hx hy]
    exact htemp

/-- The `rename` puts the contents of the call in place of what the target held. -/
theorem WholeTargets.rename (h : WholeTargets calls disk s phase) {x : JsString} (hphase : (phase i).2 = .closed x) :
    WholeTargets calls disk
      ⟨Function.update s.files (calls i).target (some (calls i).contents),
        Function.update s.temps ((calls i).target, x) none⟩
      (Function.update phase i ((phase i).1, .renamed x)) := by
  have hx {y : JsString} (hy : (WriteStage.renamed x).suffix = some y) : y = x := (Option.some.inj hy).symm
  refine h.advance (fun k hk => ?_) (fun y hy j hij htarget => ?_) (fun y hy => ?_) fun p => ?_
  · exact Function.update_of_ne (hk x rfl) _ _
  · rw [hx hy]
    exact h.apart i j x hij htarget (by rw [hphase]; rfl)
  · rw [hx hy]
    exact Function.update_self _ _ _
  · by_cases hp : p = (calls i).target
    · refine .inr ⟨i, hp.symm, ⟨x, by rw [Function.update_self]⟩, ?_⟩
      rw [hp]
      exact Function.update_self _ _ _
    · have hfile : Function.update s.files (calls i).target (some (calls i).contents) p = s.files p :=
        Function.update_of_ne hp _ _
      have hother {j : Task} (hj : (calls j).target = p) : j ≠ i := fun hji => hp (by rw [← hj, hji])
      unfold Contents
      simp only [hfile]
      obtain ⟨hold, hnone⟩ | ⟨j, hj, hrenamed, hnew⟩ := h.contents p
      · refine .inl ⟨hold, fun j hj => ?_⟩
        rw [Function.update_of_ne (hother hj)]
        exact hnone j hj
      · refine .inr ⟨j, hj, ?_, hnew⟩
        rw [Function.update_of_ne (hother hj)]
        exact hrenamed

/-- The suffixes that the calls on one target draw are different. -/
def SuffixesApart (calls : Task → FileWrite) (phase : Task → FileWrite × WriteStage) (i : Task) :
    ∀ q, WriteReply q → Prop
  | .randomSuffix, x => ∀ j, i ≠ j → (calls i).target = (calls j).target → (phase j).2.suffix ≠ some x
  | _, _ => True

/-- Every step of a call keeps all targets whole. -/
theorem wholeTargets_turn (h : WholeTargets calls disk s phase) {q : WriteAsk} {a : WriteReply q}
    (hpermits : writeProtocol.permits (phase i) q) (hmay : s.may q a t)
    (hapart : SuffixesApart calls phase i q a) :
    WholeTargets calls disk t (Function.update phase i (writeProtocol.after (phase i) q a)) := by
  have hsame : WholeTargets calls disk s (Function.update phase i (phase i)) := by
    rw [Function.update_eq_self]
    exact h
  have htarget : (phase i).1.target = (calls i).target := congrArg FileWrite.target (h.call i)
  have hcontents : (phase i).1.contents = (calls i).contents := congrArg FileWrite.contents (h.call i)
  have hbefore {stage : WriteStage} (hstage : (phase i).2 = stage) (hne : ∀ x, stage ≠ .renamed x) :
      ∀ x, (phase i).2 ≠ .renamed x := hstage ▸ hne
  have hsuffix {stage : WriteStage} {x : JsString} (hstage : (phase i).2 = stage) (hx : stage.suffix = some x) :
      (phase i).2.suffix = some x := hstage ▸ hx
  have htemp {stage : WriteStage} {x : JsString} (hstage : (phase i).2 = stage) (hx : stage.suffix = some x) :
      stage.Temp (calls i) (s.temps ((calls i).target, x)) := hstage ▸ h.temps i x (hsuffix hstage hx)
  have hupdate (x : JsString) (temp : Option Bytes) : ∀ k, k ≠ ((calls i).target, x) →
      Function.update s.temps ((calls i).target, x) temp k = s.temps k := fun k hk => Function.update_of_ne hk _ _
  -- a step that fails, and leaves the disk as it is
  have hbreak {stage : WriteStage} {x : JsString} (e : ErrnoException) (hstage : (phase i).2 = stage)
      (hx : stage.suffix = some x) (hne : ∀ y, stage ≠ .renamed y) :
      WholeTargets calls disk s (Function.update phase i ((phase i).1, .broken x e)) :=
    h.own (hsuffix hstage hx) rfl rfl (fun _ _ => rfl) trivial (hbefore hstage hne) nofun
  cases q with
  | mkdir target =>
    obtain ⟨-, hstage⟩ := hpermits
    cases a with
    | ok =>
      obtain rfl : t = s := hmay
      exact hsame
    | error e =>
      obtain rfl : t = s := hmay
      exact h.turn rfl (fun _ _ => rfl) nofun nofun (hbefore hstage nofun) nofun
  | randomSuffix =>
    obtain rfl : t = s := hmay
    refine h.turn rfl (fun _ _ => rfl) (fun x hx => ?_) (fun _ _ => trivial) (hbefore hpermits nofun) nofun
    obtain rfl := Option.some.inj hx
    exact hapart
  | openTemp target x mode =>
    obtain ⟨rfl, hstage⟩ := hpermits
    cases a with
    | ok =>
      obtain ⟨-, rfl⟩ := hmay
      rw [htarget]
      exact h.own (hsuffix hstage rfl) rfl rfl (hupdate x _) trivial (hbefore hstage nofun) nofun
    | error e =>
      obtain rfl : t = s := hmay
      exact hbreak e hstage rfl nofun
  | writeTemp target x contents =>
    obtain ⟨rfl, hstage, rfl⟩ := hpermits
    cases a with
    | ok =>
      obtain rfl : t = _ := hmay
      rw [htarget, hcontents]
      exact h.own (hsuffix hstage rfl) rfl rfl (hupdate x _) (Function.update_self _ _ _) (hbefore hstage nofun) nofun
    | error e =>
      -- whatever part of the contents has been written
      obtain ⟨part, rfl⟩ := hmay
      rw [htarget]
      exact h.own (hsuffix hstage rfl) rfl rfl (hupdate x _) trivial (hbefore hstage nofun) nofun
  | syncTemp target x =>
    obtain ⟨-, hstage⟩ := hpermits
    obtain rfl : t = s := hmay
    cases a with
    | ok =>
      have hheld : t.temps ((calls i).target, x) = some (calls i).contents := htemp hstage rfl
      exact h.own (hsuffix hstage rfl) rfl rfl (fun _ _ => rfl) hheld (hbefore hstage nofun) nofun
    | error e => exact hbreak e hstage rfl nofun
  | closeTemp target x =>
    obtain rfl : t = s := hmay
    obtain ⟨-, hstage | ⟨e, hstage⟩⟩ := hpermits
    · have hafter : writeProtocol.after (phase i) (.closeTemp target x) a =
          ((phase i).1, afterStep x (.closed x) a) := by simp only [writeProtocol, hstage]
      rw [hafter]
      cases a with
      | ok =>
        have hheld : t.temps ((calls i).target, x) = some (calls i).contents := htemp hstage rfl
        exact h.own (hsuffix hstage rfl) rfl rfl (fun _ _ => rfl) hheld (hbefore hstage nofun) nofun
      | error e => exact hbreak e hstage rfl nofun
    · -- the `close` of the `catch`, of which no error comes out
      have hafter : writeProtocol.after (phase i) (.closeTemp target x) a = phase i := by
        simp only [writeProtocol, hstage]
        rw [← hstage]
      rw [hafter]
      exact hsame
  | renameTemp target x =>
    obtain ⟨rfl, hstage⟩ := hpermits
    cases a with
    | ok =>
      obtain ⟨contents, hheld, rfl⟩ := hmay
      rw [htarget] at hheld ⊢
      -- the file that is renamed has been written to its end
      have hwhole : s.temps ((calls i).target, x) = some (calls i).contents := htemp hstage rfl
      obtain rfl := Option.some.inj (hheld.symm.trans hwhole)
      exact h.rename hstage
    | error e =>
      obtain rfl : t = s := hmay
      exact hbreak e hstage rfl nofun
  | unlinkTemp target x =>
    obtain ⟨rfl, e, hstage⟩ := hpermits
    have hafter : writeProtocol.after (phase i) (.unlinkTemp (phase i).1.target x) a =
        ((phase i).1, .discarded x e a.isOk) := by simp only [writeProtocol, hstage]
    rw [hafter]
    cases a with
    | ok =>
      obtain rfl : t = _ := hmay
      rw [htarget]
      exact h.own (hsuffix hstage rfl) rfl rfl (hupdate x _) (Function.update_self _ _ _) (hbefore hstage nofun) nofun
    | error e' =>
      obtain rfl : t = s := hmay
      exact h.own (hsuffix hstage rfl) rfl rfl (fun _ _ => rfl) trivial (hbefore hstage nofun) nofun
  | _ =>
    obtain rfl : t = s := hmay
    exact hsame

end Invariant

/-! ### Runs -/

abbrev WriteCalls (Task : Type) :=
  Side Task (WriteDisk × (Task → FileWrite × WriteStage)) WriteReply ErrnoException Unit

/-- The calls at their start, on any disk -/
def WriteCalls.start {Task : Type} (calls : Task → FileWrite) (disk : WriteDisk) : WriteCalls Task :=
  ⟨(disk, fun i => (calls i, .idle)), fun i => (calls i).atomicWriteFile⟩

/-- What holds of the calls and of every target at any point of a run. A reader finds what was there at the start,
as long as no call has renamed its file, or else all of what one that has was given. A call that resolves has renamed
its file, and its target holds its contents unless another call on the target has renamed one as well. A call that
rejects has met the failure and renamed nothing, and if it could unlink its temporary file there is none. A call of
which a step has failed renames nothing and does not resolve. -/
structure AtomicWrites {Task : Type} (calls : Task → FileWrite) (disk : WriteDisk) (s : WriteCalls Task) : Prop where
  reader : ∀ p, Contents calls disk s.shared.1 s.shared.2 p
  resolves : ∀ i, s.tasks i = .done () → Renamed (s.shared.2 i) ∧
    ((∀ j, (calls j).target = (calls i).target → Renamed (s.shared.2 j) → j = i) →
      s.shared.1.files (calls i).target = some (calls i).contents)
  rejects : ∀ i e, s.tasks i = .fail e → (s.shared.2 i).2.failure = some e ∧
    ((∀ j, (calls j).target = (calls i).target → ¬Renamed (s.shared.2 j)) →
      s.shared.1.files (calls i).target = disk.files (calls i).target) ∧
    ∀ x, (s.shared.2 i).2 = .discarded x e true → s.shared.1.temps ((calls i).target, x) = none
  fails : ∀ i e, (s.shared.2 i).2.failure = some e → ¬Renamed (s.shared.2 i) ∧ s.tasks i ≠ .done ()

theorem wholeTargets_start {Task : Type} (calls : Task → FileWrite) (disk : WriteDisk) :
    WholeTargets calls disk disk fun i => (calls i, .idle) where
  call _ := rfl
  contents _ := .inl ⟨rfl, fun _ _ h => nomatch h⟩
  temps _ _ h := nomatch h
  apart _ _ _ _ _ h := nomatch h

def graphWrite : FileWrite := { target := js "/data/graph.json", contents := [0x5B, 0x5D] }

def graphDisk : WriteDisk := ⟨fun _ => some [0x7B, 0x7D], fun _ => none⟩

end Homelab
