import Homelab.Effect
import Homelab.Host
import Mathlib.Logic.Function.Basic

/-! The data directory and the file-system calls that the commands make in it. A
file holds its text; modes are not kept, so `chmod` only tells whether it throws. -/
namespace Homelab
open Js Effect

inductive Folder
  | ca
  | keys
deriving DecidableEq

/-- Where a file lies below the data directory: `network_consent.yaml`,
`inventory.yaml`, or a name in `ca/` or `keys/`. -/
inductive Place
  | consent
  | inventory
  | inside (folder : Folder) (name : JsString)
deriving DecidableEq

abbrev Directory := JsString → Option JsString

structure DataDir where
  consent : Option JsString
  inventory : Option JsString
  folders : Folder → Option Directory

namespace DataDir

def file (d : DataDir) : Place → Option JsString
  | .consent => d.consent
  | .inventory => d.inventory
  | .inside folder name => (d.folders folder).bind fun dir => dir name

/-- The directory with `text` as the content of the file, or without the file. Nothing
can be written into a folder that does not exist. -/
def put (d : DataDir) (p : Place) (text : Option JsString) : DataDir :=
  match p with
  | .consent => { d with consent := text }
  | .inventory => { d with inventory := text }
  | .inside folder name => { d with
      folders := Function.update d.folders folder
        ((d.folders folder).map fun dir => Function.update dir name text) }

/-- `mkdir(folder, { recursive: true })` -/
def make (d : DataDir) (folder : Folder) : DataDir :=
  { d with
    folders := Function.update d.folders folder (some ((d.folders folder).getD fun _ => none)) }

/-- The folder that the file lies in exists. -/
def hasParent (d : DataDir) : Place → Bool
  | .consent => true
  | .inventory => true
  | .inside folder _ => (d.folders folder).isSome

/-- `mkdir(dirname(p), { recursive: true })` -/
def makeParent (d : DataDir) : Place → DataDir
  | .consent => d
  | .inventory => d
  | .inside folder _ => d.make folder

theorem file_put_self (d : DataDir) (p : Place) (text : Option JsString) (h : d.hasParent p) :
    (d.put p text).file p = text := by
  cases p with
  | consent => rfl
  | inventory => rfl
  | inside folder name =>
    obtain ⟨dir, hdir⟩ := Option.isSome_iff_exists.mp h
    simp [file, put, hdir]

theorem file_put_of_ne (d : DataDir) {p q : Place} (text : Option JsString) (h : q ≠ p) :
    (d.put p text).file q = d.file q := by
  cases p with
  | consent =>
    cases q with
    | consent => exact absurd rfl h
    | inventory => rfl
    | inside => rfl
  | inventory =>
    cases q with
    | consent => rfl
    | inventory => exact absurd rfl h
    | inside => rfl
  | inside folder name =>
    cases q with
    | consent => rfl
    | inventory => rfl
    | inside folder' name' =>
      by_cases hf : folder' = folder
      · subst hf
        have hn : name' ≠ name := fun hn => h (congrArg _ hn)
        cases hd : d.folders folder' <;> simp [file, put, hd, Function.update_of_ne hn]
      · simp [file, put, Function.update_of_ne hf]

theorem hasParent_of_file {d : DataDir} {p : Place} {text : JsString} (h : d.file p = some text) :
    d.hasParent p := by
  cases p with
  | consent => rfl
  | inventory => rfl
  | inside folder name =>
    obtain ⟨dir, hdir, _⟩ := Option.bind_eq_some_iff.mp h
    exact Option.isSome_iff_exists.mpr ⟨dir, hdir⟩

theorem put_file (d : DataDir) (p : Place) : d.put p (d.file p) = d := by
  cases p with
  | consent => rfl
  | inventory => rfl
  | inside folder name =>
    have hfolders : Function.update d.folders folder ((d.folders folder).map fun dir =>
        Function.update dir name ((d.folders folder).bind fun dir => dir name)) = d.folders := by
      cases hd : d.folders folder with
      | none => rw [Option.map_none, ← hd, Function.update_eq_self]
      | some dir =>
        rw [Option.map_some, Option.bind_some, Function.update_eq_self, ← hd, Function.update_eq_self]
    simp only [put, file, hfolders]

theorem file_make (d : DataDir) (folder : Folder) (p : Place) : (d.make folder).file p = d.file p := by
  cases p with
  | consent => rfl
  | inventory => rfl
  | inside folder' name =>
    by_cases hf : folder' = folder
    · subst hf
      cases hd : d.folders folder' <;> simp [file, make, hd]
    · simp [file, make, Function.update_of_ne hf]

theorem hasParent_makeParent (d : DataDir) (p : Place) : (d.makeParent p).hasParent p := by
  cases p with
  | consent => rfl
  | inventory => rfl
  | inside folder name => simp [makeParent, make, hasParent]

theorem make_of_isSome {d : DataDir} {folder : Folder} (h : (d.folders folder).isSome) :
    d.make folder = d := by
  obtain ⟨dir, hdir⟩ := Option.isSome_iff_exists.mp h
  have hupdate : Function.update d.folders folder (some dir) = d.folders := by
    rw [← hdir, Function.update_eq_self]
  simp only [make, hdir, Option.getD_some, hupdate]

end DataDir

/-! ### The calls -/

/-- A rejection of a Node.js call; none has a code of commander. -/
structure NodeError where
  error : ErrnoException
  notCommander : ∀ code, error.code = some code → (js "commander.").isPrefixOf code = false

def NodeError.enoent : NodeError :=
  ⟨⟨some (js "ENOENT"), js "ENOENT: no such file or directory"⟩, by
    intro code h
    cases h
    decide⟩

/-- A call that the host refuses for another reason than that a file is missing. -/
structure Refusal extends NodeError where
  notMissing : error.code ≠ some (js "ENOENT")

/-- The codes of `CAError`; `CAAlreadyExistsError` is the one with the first. -/
inductive CaErrorCode
  | caAlreadyExists
  | emptyPassphrase
  | noCa
  | noCert
  | sshKeygenFailed
  | fingerprintParseFailed
  | criticalRotationPartial
deriving DecidableEq

def CaErrorCode.text : CaErrorCode → JsString
  | .caAlreadyExists => js "CA_ALREADY_EXISTS"
  | .emptyPassphrase => js "EMPTY_PASSPHRASE"
  | .noCa => js "NO_CA"
  | .noCert => js "NO_CERT"
  | .sshKeygenFailed => js "SSH_KEYGEN_FAILED"
  | .fingerprintParseFailed => js "FINGERPRINT_PARSE_FAILED"
  | .criticalRotationPartial => js "CRITICAL_ROTATION_PARTIAL"

/-- What the commands throw. -/
inductive Thrown
  | node (e : NodeError)
  | ca (code : CaErrorCode) (message : JsString)
  | error (message : JsString)

def Thrown.message : Thrown → JsString
  | .node e => e.error.message
  | .ca _ message => message
  | .error message => message

/-- `err.code` -/
def Thrown.code : Thrown → Option JsString
  | .node e => e.error.code
  | .ca code _ => some code.text
  | .error _ => none

inductive FsCall
  | access (p : Place)
  | readFile (p : Place)
  | atomicWrite (p : Place)
  | appendFile (p : Place)
  | rename (source target : Place)
  | chmod (p : Place)
  | unlink (p : Place)
  | mkdir (folder : Folder)
deriving DecidableEq

/-- The data directory, the commands sent over connections and the two streams. -/
structure Machine where
  dir : DataDir
  sent : List (JsString × JsString)
  stdout : JsString
  stderr : JsString

abbrev Cli := EStateM Thrown Machine

def changeDir (f : DataDir → DataDir) : Cli Unit := modify fun m => { m with dir := f m.dir }

def printOut (s : JsString) : Cli Unit := modify fun m => { m with stdout := m.stdout ++ s }

def printErr (s : JsString) : Cli Unit := modify fun m => { m with stderr := m.stderr ++ s }

def require (ok : Bool) (e : Thrown) : Cli Unit := if ok then pure () else throw e

/-- The call throws if the host refuses it. -/
def attempt (refuses : FsCall → Option Refusal) (call : FsCall) : Cli Unit :=
  match refuses call with
  | some e => throw (.node e.toNodeError)
  | none => pure ()

/-- The text of a file that was found, or the rejection that it is missing. -/
def orEnoent : Option JsString → Cli JsString
  | some text => pure text
  | none => throw (.node .enoent)

section Calls

variable (refuses : FsCall → Option Refusal)

def existsFile (d : DataDir) (p : Place) : Bool :=
  (refuses (.access p)).isNone && (d.file p).isSome

def fileExists (p : Place) : Cli Bool := do
  let m ← get
  pure (existsFile refuses m.dir p)

def readFile (p : Place) : Cli JsString := do
  attempt refuses (.readFile p)
  let m ← get
  orEnoent (m.dir.file p)

/-- The temporary file is left out: a call that fails removes it. -/
def atomicWriteFile (p : Place) (contents : JsString) : Cli Unit := do
  attempt refuses (.atomicWrite p)
  changeDir fun d => (d.makeParent p).put p (some contents)

def appendFile (p : Place) (contents : JsString) : Cli Unit := do
  attempt refuses (.appendFile p)
  let m ← get
  if m.dir.hasParent p then changeDir fun d => d.put p (some ((d.file p).getD [] ++ contents))
  else throw (.node .enoent)

def mkdir (folder : Folder) : Cli Unit := do
  attempt refuses (.mkdir folder)
  changeDir fun d => d.make folder

def chmod (p : Place) : Cli Unit := do
  attempt refuses (.chmod p)
  let m ← get
  if (m.dir.file p).isSome then pure () else throw (.node .enoent)

def rename (source target : Place) : Cli Unit := do
  attempt refuses (.rename source target)
  let m ← get
  let text ← orEnoent (m.dir.file source)
  changeDir fun d => (d.put source none).put target (some text)

def safeUnlink (p : Place) : Cli Unit := do
  if (refuses (.unlink p)).isNone then changeDir fun d => d.put p none

theorem fileExists_run (p : Place) (m : Machine) : (fileExists refuses p).run m =
    .ok (existsFile refuses m.dir p) m := rfl

section Answers

variable {refuses} {p : Place} {e : Refusal}

theorem readFile_refused (hr : refuses (.readFile p) = some e) (m : Machine) :
    (readFile refuses p).run m = .error (.node e.toNodeError) m := by
  rw [readFile, attempt, hr]
  rfl

theorem readFile_missing (hr : refuses (.readFile p) = none) {m : Machine}
    (hm : m.dir.file p = none) : (readFile refuses p).run m = .error (.node .enoent) m := by
  rw [readFile, attempt, hr]
  change (orEnoent (m.dir.file p)).run m = _
  rw [hm]
  rfl

theorem readFile_run (hr : refuses (.readFile p) = none) {m : Machine} {text : JsString}
    (hm : m.dir.file p = some text) : (readFile refuses p).run m = .ok text m := by
  rw [readFile, attempt, hr]
  change (orEnoent (m.dir.file p)).run m = _
  rw [hm]
  rfl

theorem atomicWriteFile_refused (hw : refuses (.atomicWrite p) = some e) (text : JsString)
    (m : Machine) : (atomicWriteFile refuses p text).run m = .error (.node e.toNodeError) m := by
  rw [atomicWriteFile, attempt, hw]
  rfl

theorem atomicWriteFile_run (hw : refuses (.atomicWrite p) = none) (text : JsString) (m : Machine) :
    (atomicWriteFile refuses p text).run m =
      .ok () { m with dir := (m.dir.makeParent p).put p (some text) } := by
  rw [atomicWriteFile, attempt, hw]
  rfl

end Answers

/-! ### What the calls change -/

/-- The relation holds across printing and across writes to the places in `W`. -/
structure Permits (R : Machine → Machine → Prop) (W : Place → Prop) : Prop where
  put : ∀ m p text, W p → R m { m with dir := m.dir.put p text }
  make : ∀ m folder name, W (.inside folder name) → R m { m with dir := m.dir.make folder }
  out : ∀ m s, R m { m with stdout := m.stdout ++ s }
  err : ∀ m s, R m { m with stderr := m.stderr ++ s }

/-- A file stays as it is while other places are written. -/
theorem permits_file (q : Place) : Permits (Same fun m => m.dir.file q) (· ≠ q) where
  put m _ text hp := m.dir.file_put_of_ne text hp.symm
  make m folder _ _ := m.dir.file_make folder q
  out _ _ := rfl
  err _ _ := rfl

/-- A folder that exists goes on to exist. -/
theorem permits_folder (folder : Folder) :
    Permits (Stays fun m => (m.dir.folders folder).isSome) fun _ => True where
  put m p text _ h := by
    cases p with
    | consent => exact h
    | inventory => exact h
    | inside folder' name =>
      by_cases hf : folder = folder'
      · subst hf
        simpa [DataDir.put] using h
      · simpa [DataDir.put, Function.update_of_ne hf] using h
  make m folder' _ _ h := by
    by_cases hf : folder = folder'
    · subst hf
      simp [DataDir.make]
    · simpa [DataDir.make, Function.update_of_ne hf] using h
  out _ _ h := h
  err _ _ h := h

variable {R : Machine → Machine → Prop} {W : Place → Prop}

section

variable (hR : Permits R W)
include hR

theorem printOut_within (s : JsString) : Within R (printOut s) := Within.update _ (hR.out · s)

theorem printErr_within (s : JsString) : Within R (printErr s) := Within.update _ (hR.err · s)

theorem put_within {p : Place} (hp : W p) (text : DataDir → Option JsString) :
    Within R (changeDir fun d => d.put p (text d)) :=
  Within.update _ fun m => hR.put m p (text m.dir) hp

end

variable [IsPreorder Machine R]

theorem attempt_within (call : FsCall) : Within R (attempt refuses call) := by
  unfold attempt
  cases refuses call with
  | some e => exact Within.throw _
  | none => exact Within.pure _

theorem fileExists_within (p : Place) : Within R (fileExists refuses p) :=
  Within.bind Within.get fun _ => Within.pure _

theorem orEnoent_within (found : Option JsString) : Within R (orEnoent found) := by
  cases found with
  | some text => exact Within.pure _
  | none => exact Within.throw _

theorem chmod_within (p : Place) : Within R (chmod refuses p) := by
  apply Within.bind (attempt_within refuses _)
  intro _
  exact Within.bind Within.get fun _ => Within.ite _ (Within.pure _) (Within.throw _)

variable (hR : Permits R W)
include hR

theorem mkdir_within {folder : Folder} (name : JsString) (hp : W (.inside folder name)) :
    Within R (mkdir refuses folder) :=
  Within.bind (attempt_within refuses _) fun _ => Within.update _ fun m => hR.make m folder name hp

theorem atomicWriteFile_within {p : Place} (hp : W p) (contents : JsString) :
    Within R (atomicWriteFile refuses p contents) := by
  apply Within.bind (attempt_within refuses _)
  intro _
  apply Within.update
  intro m
  cases p with
  | consent => exact hR.put m _ _ hp
  | inventory => exact hR.put m _ _ hp
  | inside folder name =>
    exact trans_of R (hR.make m folder name hp)
      (hR.put { m with dir := m.dir.make folder } _ (some contents) hp)

theorem appendFile_within {p : Place} (hp : W p) (contents : JsString) :
    Within R (appendFile refuses p contents) := by
  apply Within.bind (attempt_within refuses _)
  intro _
  apply Within.bind Within.get
  intro _
  exact Within.ite _ (put_within hR hp _) (Within.throw _)

theorem rename_within {source target : Place} (hs : W source) (ht : W target) :
    Within R (rename refuses source target) := by
  apply Within.bind (attempt_within refuses _)
  intro _
  apply Within.bind Within.get
  intro _
  apply Within.bind (orEnoent_within _)
  intro text
  apply Within.update
  intro m
  exact trans_of R (hR.put m source none hs)
    (hR.put { m with dir := m.dir.put source none } target (some text) ht)

theorem safeUnlink_within {p : Place} (hp : W p) : Within R (safeUnlink refuses p) :=
  Within.ite _ (put_within hR hp _) (Within.pure _)

end Calls

end Homelab
