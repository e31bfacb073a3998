import Homelab.BackupRestore
import Homelab.BackupSound

/-! In which order a restore verifies its entry, has it approved and runs commands: which of
them come before the entry is known to be authentic. -/
namespace Homelab
open Js Path Shell Dialogue

/-! ### Runs and their exchanges -/

/-- The HMAC check answers what the entry and the secret determine; commands and the gate may
answer anything. -/
def MayRestore (rt : BackupRuntime) (entry : JsValue) : ∀ q : RestoreAsk, RestoreAnswer q → Prop
  | .exec _ _, _ => True
  | .verifyHmac, verified => verified = verifyEntryHmac rt entry
  | .gate _, _ => True

/-- A run of `runRestore` on the entry, or of `dryRunRestore` when there is no input. -/
def RestoreRun (rt : BackupRuntime) (entry : JsValue) :
    Option RestoreInput → List (Exchange RestoreAnswer) → Prop
  | none, log => ∃ r, Talks (MayRestore rt entry) (dryRunRestore entry) log r
  | some input, log => ∃ r, Talks (MayRestore rt entry) (runRestore entry input) log r

/-- A command that is built from fields of the entry. -/
def RestoreAsk.fromEntry : RestoreAsk → Bool
  | .exec .readArtifact _ => true
  | .exec .reachTarget _ => false
  | .exec .checksum _ => true
  | .exec (.restore fromEntry) _ => fromEntry
  | .verifyHmac => false
  | .gate _ => false

/-- A command that changes the target. -/
def RestoreAsk.restores : RestoreAsk → Bool
  | .exec (.restore _) _ => true
  | _ => false

/-- What is asked after the dry run. -/
def RestoreAsk.late : RestoreAsk → Bool
  | .exec (.restore _) _ => true
  | .gate _ => true
  | _ => false

def RestoreAsk.hashes : RestoreAsk → Bool
  | .exec .checksum _ => true
  | _ => false

def RestoreAsk.verifies : RestoreAsk → Bool
  | .verifyHmac => true
  | _ => false

def FromEntry (x : Exchange RestoreAnswer) : Prop := x.ask.fromEntry = true

def Restores (x : Exchange RestoreAnswer) : Prop := x.ask.restores = true

def HmacVerified : Exchange RestoreAnswer → Prop
  | ⟨.verifyHmac, verified⟩ => verified = true
  | _ => False

def ChecksumVerified (entry : JsValue) : Exchange RestoreAnswer → Prop
  | ⟨.exec .checksum _, .ok result⟩ =>
    result.exitCode = 0 ∧ isTextOf (trim result.stdout) (property (js "checksum") entry) = true
  | _ => False

def Approved : Exchange RestoreAnswer → Prop
  | ⟨.gate _, .ok _⟩ => True
  | _ => False

/-- No command from the entry's fields before its HMAC has been verified, and no restoring
command before that, the checksum and the approval. -/
structure VerifiedFirst (entry : JsValue) (log : List (Exchange RestoreAnswer)) : Prop where
  fields : NotBefore HmacVerified FromEntry log
  hmac : NotBefore HmacVerified Restores log
  checksum : NotBefore (ChecksumVerified entry) Restores log
  approval : NotBefore Approved Restores log

/-- The plan can be built and the location is a text, so that the dry run looks for it. -/
def Probed (entry : JsValue) : Prop :=
  (∃ plan, buildRestorePlan entry = .ok plan) ∧ ∃ s, property (js "location") entry = .str s

/-- One of the two checks of the entry is skipped. -/
def Unchecked (entry : JsValue) : Prop :=
  property (js "hmac") entry = .str [] ∨ property (js "checksum") entry = .str [] ∨
    isOpenSearch (property (js "location") entry) = .ok true

theorem HmacVerified.asked {x : Exchange RestoreAnswer} (h : HmacVerified x) :
    x.ask.verifies = true := by
  obtain ⟨q, answer⟩ := x
  cases q with
  | verifyHmac => rfl
  | _ => exact h.elim

theorem HmacVerified.not_late {x : Exchange RestoreAnswer} (h : HmacVerified x) :
    ¬ x.ask.late = true := by
  obtain ⟨q, answer⟩ := x
  cases q with
  | verifyHmac => exact Bool.false_ne_true
  | _ => exact h.elim

theorem ChecksumVerified.isChecksum {entry : JsValue} {x : Exchange RestoreAnswer}
    (h : ChecksumVerified entry x) : ∃ script, x.ask = .exec .checksum script := by
  obtain ⟨q, answer⟩ := x
  cases q with
  | exec step script =>
    cases step with
    | checksum => exact ⟨script, rfl⟩
    | _ => exact h.elim
  | _ => exact h.elim

theorem ChecksumVerified.asked {entry : JsValue} {x : Exchange RestoreAnswer}
    (h : ChecksumVerified entry x) : x.ask.hashes = true := by
  obtain ⟨script, hask⟩ := h.isChecksum
  rw [hask]
  rfl

theorem ChecksumVerified.not_late {entry : JsValue} {x : Exchange RestoreAnswer}
    (h : ChecksumVerified entry x) : ¬ x.ask.late = true := by
  obtain ⟨script, hask⟩ := h.isChecksum
  rw [hask]
  exact Bool.false_ne_true

/-! ### What the parts ask -/

variable {entry : JsValue} {P : RestoreAsk → Prop}

theorem asks_restoreExec {step : RestoreStep} {script : Script JsString}
    (h : P (.exec step script)) : (Restore.exec step script).Asks P := by
  refine ⟨h, fun answer => ?_⟩
  cases answer <;> trivial

theorem asks_caughtCheck {label : JsString} {check : Restore DryRunCheck} (h : check.Asks P) :
    (caughtCheck label check).Asks P := by
  apply asks_bind (asks_attempt h)
  intro result
  cases result <;> trivial

theorem asks_probeArtifact (h : ∀ script, P (.exec .readArtifact script)) :
    (probeArtifact entry).Asks P := by
  rw [probeArtifact]
  cases isOpenSearch (property (js "location") entry) with
  | error message => trivial
  | ok openSearch =>
    have hread (location : JsString) : (probeFile location).Asks P :=
      asks_bind (asks_restoreExec (h _)) fun _ => trivial
    have hsnapshot (location : JsString) : (probeSnapshot location).Asks P :=
      asks_bind (asks_restoreExec (h _)) fun _ => trivial
    cases openSearch with
    | true => exact hsnapshot _
    | false => exact hread _

theorem asks_probeTarget (h : ∀ script, P (.exec .reachTarget script)) : probeTarget.Asks P :=
  asks_bind (asks_restoreExec (h _)) fun _ => trivial

theorem asks_checkHmac (h : P .verifyHmac ∨ property (js "hmac") entry = .str []) :
    (checkHmac entry).Asks P := by
  rw [checkHmac]
  split_ifs with hempty
  · trivial
  · rcases h with h | h
    · refine ⟨h, fun verified => ?_⟩
      cases verified <;> trivial
    · exact absurd ((isEmptyText_iff _).mpr h) hempty

theorem asks_checkChecksum (h : (∀ script, P (.exec .checksum script)) ∨
    property (js "checksum") entry = .str [] ∨
    isOpenSearch (property (js "location") entry) ≠ .ok false) : (checkChecksum entry).Asks P := by
  rw [checkChecksum]
  split_ifs with hempty
  · trivial
  · cases hlocation : isOpenSearch (property (js "location") entry) with
    | error message => trivial
    | ok openSearch =>
      cases openSearch with
      | true => trivial
      | false =>
        rcases h with h | h | h
        · refine asks_bind (asks_restoreExec (h _)) fun result => ?_
          rw [compareChecksum]
          split_ifs <;> trivial
        · exact absurd ((isEmptyText_iff _).mpr h) hempty
        · exact absurd hlocation h

theorem asks_reVerifyEntry (hhmac : P .verifyHmac ∨ property (js "hmac") entry = .str [])
    (hchecksum : (∀ script, P (.exec .checksum script)) ∨ property (js "checksum") entry = .str [] ∨
      isOpenSearch (property (js "location") entry) ≠ .ok false) : (reVerifyEntry entry).Asks P :=
  asks_bind (asks_checkHmac hhmac) fun _ => asks_checkChecksum hchecksum

theorem asks_dryRunRestore (hread : (∀ script, P (.exec .readArtifact script)) ∨
      ∀ s, property (js "location") entry ≠ .str s)
    (hreach : ∀ script, P (.exec .reachTarget script))
    (hhmac : P .verifyHmac ∨ property (js "hmac") entry = .str [])
    (hchecksum : (∀ script, P (.exec .checksum script)) ∨ property (js "checksum") entry = .str [] ∨
      isOpenSearch (property (js "location") entry) ≠ .ok false) : (dryRunRestore entry).Asks P := by
  have hartifact : (probeArtifact entry).Asks P := by
    rcases hread with hread | hlocation
    · exact asks_probeArtifact hread
    · rw [probeArtifact]
      cases hvalue : property (js "location") entry with
      | str s => exact absurd hvalue (hlocation s)
      | _ => trivial
  rw [dryRunRestore]
  cases buildRestorePlan entry with
  | error message => trivial
  | ok plan =>
    apply asks_bind (asks_caughtCheck hartifact)
    intro artifact
    apply asks_bind (asks_caughtCheck (asks_probeTarget hreach))
    intro target
    exact asks_bind (asks_attempt (asks_reVerifyEntry hhmac hchecksum)) fun _ => trivial

theorem asks_restoreCommand {fromEntry : Bool} {script : Script JsString}
    (h : P (.exec (.restore fromEntry) script)) : (restoreCommand fromEntry script).Asks P := by
  refine asks_bind (asks_restoreExec h) fun result => ?_
  split_ifs <;> trivial

theorem asks_execRestore (h : ∀ b script, P (.exec (.restore b) script)) :
    (execRestore entry).Asks P := by
  have hcommand (b : Bool) (script : Script JsString) : (restoreCommand b script).Asks P :=
    asks_restoreCommand (h b script)
  unfold execRestore
  dsimp only
  cases restoreBranch (property (js "platform") entry) with
  | postgres =>
    dsimp only
    split_ifs
    · exact hcommand _ _
    · exact hcommand _ _
  | redis =>
    exact asks_bind (hcommand _ _) fun _ => asks_bind (hcommand _ _) fun _ => hcommand _ _
  | dockerVolume =>
    dsimp only
    unfold dockerExtract
    split
    · trivial
    · trivial
    · exact hcommand _ _
  | opensearch =>
    dsimp only
    split <;> trivial
  | _ => exact hcommand _ _

/-! ### What an accepted entry has passed -/

variable {rt : BackupRuntime} {log : List (Exchange RestoreAnswer)}

theorem checkHmac_ok (h : Talks (MayRestore rt entry) (checkHmac entry) log (.ok ())) :
    property (js "hmac") entry = .str [] ∨ ∃ x ∈ log, HmacVerified x := by
  rw [checkHmac] at h
  split_ifs at h with hempty
  · exact Or.inl ((isEmptyText_iff _).mp hempty)
  · obtain ⟨verified, rest, _, hrest, rfl⟩ := talks_ask.mp h
    cases verified with
    | true => exact Or.inr ⟨_, List.mem_cons_self .., rfl⟩
    | false =>
      obtain ⟨_, hcontra⟩ := talks_fail.mp hrest
      cases hcontra

theorem checkChecksum_ok (h : Talks (MayRestore rt entry) (checkChecksum entry) log (.ok ())) :
    property (js "checksum") entry = .str [] ∨
      isOpenSearch (property (js "location") entry) = .ok true ∨
      ∃ x ∈ log, ChecksumVerified entry x := by
  rw [checkChecksum] at h
  split_ifs at h with hempty
  · exact Or.inl ((isEmptyText_iff _).mp hempty)
  · cases hlocation : isOpenSearch (property (js "location") entry) with
    | error message =>
      rw [hlocation] at h
      obtain ⟨_, hcontra⟩ := talks_fail.mp h
      cases hcontra
    | ok openSearch =>
      rw [hlocation] at h
      cases openSearch with
      | true => exact Or.inr (Or.inl rfl)
      | false =>
        obtain ⟨answer, rest, _, hrest, rfl⟩ := talks_ask.mp h
        cases answer with
        | error message =>
          obtain ⟨_, hcontra⟩ := talks_fail.mp hrest
          cases hcontra
        | ok result =>
          change Talks _ (compareChecksum entry _ result) rest _ at hrest
          rw [compareChecksum] at hrest
          -- only a matching checksum lets the entry through
          split_ifs at hrest with hexit htext
          · obtain ⟨_, hcontra⟩ := talks_fail.mp hrest
            cases hcontra
          · exact Or.inr (Or.inr ⟨_, List.mem_cons_self .., not_not.mp hexit, htext⟩)
          · obtain ⟨_, hcontra⟩ := talks_fail.mp hrest
            cases hcontra

theorem reVerifyEntry_ok (h : Talks (MayRestore rt entry) (reVerifyEntry entry) log (.ok ()))
    (hchecked : ¬ Unchecked entry) :
    (∃ x ∈ log, HmacVerified x) ∧ ∃ x ∈ log, ChecksumVerified entry x := by
  rcases talks_bind.mp h with ⟨_, _, hcontra⟩ | ⟨_, first, second, hfirst, hsecond, rfl⟩
  · cases hcontra
  · constructor
    · rcases checkHmac_ok hfirst with hempty | ⟨x, hx, hverified⟩
      · exact absurd (Or.inl hempty) hchecked
      · exact ⟨x, List.mem_append_left _ hx, hverified⟩
    · rcases checkChecksum_ok hsecond with hempty | hopen | ⟨x, hx, hverified⟩
      · exact absurd (Or.inr (Or.inl hempty)) hchecked
      · exact absurd (Or.inr (Or.inr hopen)) hchecked
      · exact ⟨x, List.mem_append_right _ hx, hverified⟩

/-- The parts of a dry run whose plan could be built. -/
theorem dryRunRestore_run {plan : RestorePlan} (hplan : buildRestorePlan entry = .ok plan)
    {r : Except RestoreError DryRunResult}
    (h : Talks (MayRestore rt entry) (dryRunRestore entry) log r) :
    ∃ artifact target verification l₁ l₂ l₃,
      Talks (MayRestore rt entry) (caughtCheck (js "Artifact readability check failed: ")
        (probeArtifact entry)) l₁ (.ok artifact) ∧
      Talks (MayRestore rt entry) (caughtCheck (js "Target reachability check failed: ")
        probeTarget) l₂ (.ok target) ∧
      Talks (MayRestore rt entry) (reVerifyEntry entry) l₃ verification ∧
      log = l₁ ++ (l₂ ++ l₃) ∧ r = .ok (concludeDryRun plan artifact target verification) := by
  have hcaught {label : JsString} {check : Restore DryRunCheck} {l : List (Exchange RestoreAnswer)}
      {e : RestoreError} : ¬ Talks (MayRestore rt entry) (caughtCheck label check) l (.error e) := by
    intro hrun
    rcases talks_bind.mp hrun with ⟨_, hattempt, _⟩ | ⟨result, _, _, _, hrest, _⟩
    · obtain ⟨_, _, hcontra⟩ := talks_attempt.mp hattempt
      cases hcontra
    · cases result with
      | error e' =>
        obtain ⟨_, hcontra⟩ := talks_done.mp hrest
        cases hcontra
      | ok c =>
        obtain ⟨_, hcontra⟩ := talks_done.mp hrest
        cases hcontra
  rw [dryRunRestore, hplan] at h
  rcases talks_bind.mp h with ⟨_, hfirst, _⟩ | ⟨artifact, l₁, _, hfirst, hrest, rfl⟩
  · exact (hcaught hfirst).elim
  · rcases talks_bind.mp hrest with ⟨_, hsecond, _⟩ | ⟨target, l₂, _, hsecond, hrest', rfl⟩
    · exact (hcaught hsecond).elim
    · rcases talks_bind.mp hrest' with ⟨_, hattempt, _⟩ | ⟨verification, l₃, _, hattempt, hlast, rfl⟩
      · obtain ⟨_, _, hcontra⟩ := talks_attempt.mp hattempt
        cases hcontra
      · obtain ⟨verification', hthird, hsame⟩ := talks_attempt.mp hattempt
        obtain rfl := Except.ok.inj hsame
        obtain ⟨rfl, rfl⟩ := talks_done.mp hlast
        rw [List.append_nil]
        exact ⟨artifact, target, verification, l₁, l₂, l₃, hfirst, hsecond, hthird, rfl, rfl⟩

/-- A dry run that accepts its entry has verified what the entry lets it verify. -/
theorem dryRunRestore_ok {result : DryRunResult}
    (h : Talks (MayRestore rt entry) (dryRunRestore entry) log (.ok result))
    (hok : result.ok = true) (hchecked : ¬ Unchecked entry) :
    (∃ x ∈ log, HmacVerified x) ∧ ∃ x ∈ log, ChecksumVerified entry x := by
  cases hplan : buildRestorePlan entry with
  | error message =>
    rw [dryRunRestore, hplan] at h
    obtain ⟨_, hcontra⟩ := talks_fail.mp h
    cases hcontra
  | ok plan =>
    obtain ⟨_, _, verification, l₁, l₂, l₃, _, _, hthird, rfl, hr⟩ := dryRunRestore_run hplan h
    cases verification with
    | error e =>
      rw [Except.ok.inj hr] at hok
      cases hok
    | ok u =>
      obtain ⟨⟨x, hx, hmac⟩, y, hy, hchecksum⟩ := reVerifyEntry_ok hthird hchecked
      exact ⟨⟨x, List.mem_append_right _ (List.mem_append_right _ hx), hmac⟩,
        y, List.mem_append_right _ (List.mem_append_right _ hy), hchecksum⟩

/-- Without a text as its location an entry fails the dry run. -/
theorem dryRunRestore_refuses (hlocation : ∀ s, property (js "location") entry ≠ .str s)
    {result : DryRunResult}
    (h : Talks (MayRestore rt entry) (dryRunRestore entry) log (.ok result)) : result.ok = false := by
  obtain ⟨message, hopen⟩ : ∃ message, isOpenSearch (property (js "location") entry) =
      .error message := by
    cases hvalue : property (js "location") entry with
    | str s => exact absurd hvalue (hlocation s)
    | _ => exact ⟨_, rfl⟩
  cases hplan : buildRestorePlan entry with
  | error e =>
    rw [dryRunRestore, hplan] at h
    obtain ⟨_, hcontra⟩ := talks_fail.mp h
    cases hcontra
  | ok plan =>
    obtain ⟨artifact, target, verification, l₁, l₂, l₃, hfirst, _, _, _, hr⟩ :=
      dryRunRestore_run hplan h
    have hartifact : artifact.passed = false := by
      rw [probeArtifact, hopen] at hfirst
      obtain ⟨_, hsame⟩ := talks_done.mp hfirst
      rw [Except.ok.inj hsame]
    rw [Except.ok.inj hr]
    cases verification with
    | error e => rfl
    | ok u =>
      rw [concludeDryRun, hartifact]
      rfl

/-- The first thing that is done with a probed entry is a command from its location. -/
theorem dryRunRestore_probes (hprobed : Probed entry) {r : Except RestoreError DryRunResult}
    (h : Talks (MayRestore rt entry) (dryRunRestore entry) log r) :
    ∃ x rest, log = x :: rest ∧ FromEntry x := by
  obtain ⟨⟨plan, hplan⟩, s, hs⟩ := hprobed
  obtain ⟨_, _, _, l₁, l₂, l₃, hfirst, _, _, rfl, _⟩ := dryRunRestore_run hplan h
  have hask : ∃ script next, probeArtifact entry = .ask (.exec .readArtifact script) next := by
    rw [probeArtifact, hs, isOpenSearch]
    cases openSearchScheme.isPrefixOf s with
    | true => exact ⟨_, _, rfl⟩
    | false => exact ⟨_, _, rfl⟩
  obtain ⟨script, next, hask⟩ := hask
  rw [hask] at hfirst
  obtain ⟨answer, rest, _, _, rfl⟩ := talks_ask.mp hfirst
  exact ⟨_, _, rfl, rfl⟩

/-! ### The order of a whole run -/

theorem of_asks {m : Restore DryRunResult} {r : Except RestoreError DryRunResult} {b : RestoreAsk → Bool}
    (hm : m.Asks fun q => b q = false) (h : Talks (MayRestore rt entry) m log r) :
    ∀ x ∈ log, ¬ b x.ask = true :=
  fun x hx htrue => absurd ((hm.of_mem h x hx).1.symm.trans htrue) Bool.false_ne_true

theorem dryRunRestore_restores_nothing {r : Except RestoreError DryRunResult}
    (h : Talks (MayRestore rt entry) (dryRunRestore entry) log r) : ∀ x ∈ log, ¬ Restores x := by
  refine of_asks ?_ h
  exact asks_dryRunRestore (Or.inl fun _ => rfl) (fun _ => rfl) (Or.inl rfl) (Or.inl fun _ => rfl)

theorem dryRunRestore_unprobed (hlocation : ∀ s, property (js "location") entry ≠ .str s)
    {r : Except RestoreError DryRunResult}
    (h : Talks (MayRestore rt entry) (dryRunRestore entry) log r) : ∀ x ∈ log, ¬ FromEntry x := by
  refine of_asks ?_ h
  refine asks_dryRunRestore (Or.inr hlocation) (fun _ => rfl) (Or.inl rfl) (Or.inr (Or.inr ?_))
  cases hvalue : property (js "location") entry with
  | str s => exact absurd hvalue (hlocation s)
  | _ => exact fun hcontra => (by cases hcontra)

theorem runRestore_late {input : RestoreInput} {plan : RestorePlan} {result : RestoreResult}
    {r : Except RestoreError RestoreResult}
    (h : Talks (MayRestore rt entry) (do
      Restore.approve (restoreAction entry input plan)
      execRestore entry
      pure result) log r) : ∀ x ∈ log, x.ask.late = true := by
  have hasks : (do
      Restore.approve (restoreAction entry input plan)
      execRestore entry
      pure result : Restore RestoreResult).Asks fun q => q.late = true := by
    have happrove (action : RestoreAction) : (Restore.approve action).Asks fun q => q.late = true := by
      refine ⟨rfl, fun answer => ?_⟩
      cases answer <;> trivial
    exact asks_bind (happrove _) fun _ => asks_bind (asks_execRestore fun _ _ => rfl) fun _ => trivial
  exact fun x hx => (hasks.of_mem h x hx).1

/-- A run is a dry run, which may be followed by the approval and the restoring commands. -/
theorem restoreRun_split {call : Option RestoreInput} (h : RestoreRun rt entry call log) :
    ∃ r dry rest, Talks (MayRestore rt entry) (dryRunRestore entry) dry r ∧ log = dry ++ rest ∧
      NotBefore Approved Restores rest ∧ (∀ x ∈ rest, x.ask.late = true) ∧
      (rest = [] ∨ ∃ result, r = .ok result ∧ result.ok = true) := by
  have hnil : ∀ x ∈ ([] : List (Exchange RestoreAnswer)), x.ask.late = true :=
    fun x hx => absurd hx List.not_mem_nil
  cases call with
  | none =>
    obtain ⟨r, h⟩ := h
    exact ⟨r, log, [], h, (List.append_nil _).symm, trivial, hnil, Or.inl rfl⟩
  | some input =>
    obtain ⟨r, h⟩ := h
    rcases talks_bind.mp h with ⟨e, hdry, rfl⟩ | ⟨result, dry, rest, hdry, hrest, rfl⟩
    · exact ⟨_, log, [], hdry, (List.append_nil _).symm, trivial, hnil, Or.inl rfl⟩
    · refine ⟨_, dry, rest, hdry, rfl, ?_⟩
      dsimp only at hrest
      split_ifs at hrest with hfailed hdryRun
      · obtain ⟨rfl, _⟩ := talks_fail.mp hrest
        exact ⟨trivial, hnil, Or.inl rfl⟩
      · obtain ⟨rfl, _⟩ := talks_done.mp hrest
        exact ⟨trivial, hnil, Or.inl rfl⟩
      · have hpassed : result.ok = true := Bool.eq_true_of_not_eq_false hfailed
        refine ⟨?_, runRestore_late hrest, Or.inr ⟨result, rfl, hpassed⟩⟩
        obtain ⟨answer, rest', _, hrest', rfl⟩ := talks_ask.mp hrest
        refine ⟨fun hcontra => (by cases hcontra), ?_⟩
        cases answer with
        | ok u => exact Or.inl trivial
        | error e =>
          obtain ⟨rfl, _⟩ := talks_fail.mp hrest'
          exact Or.inr trivial

/-- Every restoring command is approved. Commands from the fields of an entry come before the
verification of its HMAC exactly when the dry run looks for its artifact, and restoring ones
come without a verified HMAC and checksum exactly when one of the two checks is skipped. -/
theorem verified_first_iff (rt : BackupRuntime) (entry : JsValue) (call : Option RestoreInput)
    (log : List (Exchange RestoreAnswer)) (h : RestoreRun rt entry call log) :
    (VerifiedFirst entry log ↔ ¬ Probed entry) ∧ NotBefore Approved Restores log ∧
      (NotBefore HmacVerified Restores log ∧ NotBefore (ChecksumVerified entry) Restores log ↔
        ¬ ((∃ x ∈ log, Restores x) ∧ Unchecked entry)) := by
  obtain ⟨r, dry, rest, hdry, rfl, hrest, hlate, hwhen⟩ := restoreRun_split h
  have hnothing := dryRunRestore_restores_nothing hdry
  have hgate : NotBefore Approved Restores (dry ++ rest) :=
    notBefore_append (notBefore_of_none hnothing) (Or.inr hrest)
  refine ⟨?_, hgate, ?_⟩
  · constructor
    · intro hfirst hprobed
      obtain ⟨x, _, rfl, hfrom⟩ := dryRunRestore_probes hprobed hdry
      exact hfirst.fields.1 hfrom
    · intro hnot
      -- an entry that is not probed sends nothing of its own, and its dry run fails
      have hdryNone : ∀ x ∈ dry, ¬ FromEntry x := by
        cases hplan : buildRestorePlan entry with
        | error message =>
          rw [dryRunRestore, hplan] at hdry
          obtain ⟨rfl, _⟩ := talks_fail.mp hdry
          exact fun x hx => absurd hx List.not_mem_nil
        | ok plan =>
          exact dryRunRestore_unprobed (fun s hs => hnot ⟨⟨plan, hplan⟩, s, hs⟩) hdry
      have hnil : rest = [] := by
        rcases hwhen with hnil | ⟨result, rfl, hok⟩
        · exact hnil
        · cases hplan : buildRestorePlan entry with
          | error message =>
            rw [dryRunRestore, hplan] at hdry
            obtain ⟨_, hcontra⟩ := talks_fail.mp hdry
            cases hcontra
          | ok plan =>
            have hfailed := dryRunRestore_refuses (fun s hs => hnot ⟨⟨plan, hplan⟩, s, hs⟩) hdry
            rw [hfailed] at hok
            cases hok
      rw [hnil, List.append_nil]
      exact ⟨notBefore_of_none hdryNone, notBefore_of_none hnothing, notBefore_of_none hnothing,
        notBefore_of_none hnothing⟩
  · constructor
    · rintro ⟨hhmac, hchecksum⟩ ⟨hrestores, hunchecked⟩
      rcases hunchecked with hempty | hskipped
      · -- with an empty HMAC nothing in the run verifies it
        obtain ⟨x, hx, hverified⟩ := hhmac.exists hrestores
        have hdryNone : ∀ x ∈ dry, ¬ x.ask.verifies = true := by
          refine of_asks ?_ hdry
          exact asks_dryRunRestore (Or.inl fun _ => rfl) (fun _ => rfl) (Or.inr hempty)
            (Or.inl fun _ => rfl)
        rcases List.mem_append.mp hx with hx | hx
        · exact hdryNone x hx hverified.asked
        · exact absurd (hlate x hx) hverified.not_late
      · obtain ⟨x, hx, hverified⟩ := hchecksum.exists hrestores
        have hdryNone : ∀ x ∈ dry, ¬ x.ask.hashes = true := by
          refine of_asks ?_ hdry
          refine asks_dryRunRestore (Or.inl fun _ => rfl) (fun _ => rfl) (Or.inl rfl) (Or.inr ?_)
          rcases hskipped with hempty | hopen
          · exact Or.inl hempty
          · exact Or.inr fun hcontra => (by rw [hopen] at hcontra; cases hcontra)
        rcases List.mem_append.mp hx with hx | hx
        · exact hdryNone x hx hverified.asked
        · exact absurd (hlate x hx) hverified.not_late
    · intro hnot
      by_cases hrestores : ∃ x ∈ dry ++ rest, Restores x
      · have hchecked : ¬ Unchecked entry := fun hunchecked => hnot ⟨hrestores, hunchecked⟩
        rcases hwhen with rfl | ⟨result, rfl, hok⟩
        · obtain ⟨x, hx, hr⟩ := hrestores
          rw [List.append_nil] at hx
          exact absurd hr (hnothing x hx)
        · obtain ⟨hmac, hchecksum⟩ := dryRunRestore_ok hdry hok hchecked
          exact ⟨notBefore_append (notBefore_of_none hnothing) (Or.inl hmac),
            notBefore_append (notBefore_of_none hnothing) (Or.inl hchecksum)⟩
      · have hnone : ∀ x ∈ dry ++ rest, ¬ Restores x := fun x hx hr => hrestores ⟨x, hx, hr⟩
        exact ⟨notBefore_of_none hnone, notBefore_of_none hnone⟩

/-! ### An entry that nobody signed -/

/-- An entry that was put into the manifest by hand. -/
def forgedEntry : JsValue :=
  .obj [(js "schema_version", .num (.ofNat 2)), (js "platform", .str (js "postgres")),
    (js "target_id", .str (js "app")), (js "backup_type", .str (js "postgres")),
    (js "taken_at", .str (js "2026-01-01T00:00:00.000Z")),
    (js "location", .str (js "/b/a.gz; touch /tmp/owned")), (js "size_bytes", .num (.ofNat 0)),
    (js "max_age_seconds", .num (.ofNat 86400)), (js "checksum", .str (js "00")),
    (js "verified", .bool false), (js "hmac", .str (js "00"))]

theorem forgedEntry_probed : Probed forgedEntry := ⟨⟨_, rfl⟩, _, rfl⟩

theorem restoreRun_exists (rt : BackupRuntime) (entry : JsValue) :
    ∃ log, RestoreRun rt entry none log := by
  have hmay (q : RestoreAsk) : ∃ a, MayRestore rt entry q a := by
    cases q with
    | exec step script => exact ⟨.error [], trivial⟩
    | verifyHmac => exact ⟨_, rfl⟩
    | gate action => exact ⟨.ok (), trivial⟩
  obtain ⟨log, r, h⟩ := talks_exists hmay (dryRunRestore entry)
  exact ⟨log, r, h⟩

theorem verified_first_forged : ∃ log, RestoreRun january forgedEntry none log ∧
    (VerifiedFirst forgedEntry log ↔ ¬ Probed forgedEntry) ∧ NotBefore Approved Restores log ∧
      (NotBefore HmacVerified Restores log ∧
        NotBefore (ChecksumVerified forgedEntry) Restores log ↔
          ¬ ((∃ x ∈ log, Restores x) ∧ Unchecked forgedEntry)) := by
  obtain ⟨log, hrun⟩ := restoreRun_exists january forgedEntry
  exact ⟨log, hrun, verified_first_iff january forgedEntry none log hrun⟩

/-- The location of a forged entry is sent to the host before its HMAC is looked at. -/
theorem verified_first_fails : ¬ ∀ (rt : BackupRuntime) (entry : JsValue)
    (call : Option RestoreInput) (log : List (Exchange RestoreAnswer)),
    RestoreRun rt entry call log → VerifiedFirst entry log := by
  intro h
  obtain ⟨log, r, hrun⟩ := restoreRun_exists january forgedEntry
  obtain ⟨x, rest, rfl, hfrom⟩ := dryRunRestore_probes forgedEntry_probed hrun
  exact (h january forgedEntry none _ ⟨r, hrun⟩).fields.1 hfrom

end Homelab
