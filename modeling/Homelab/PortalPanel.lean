import Homelab.AuditRestart
import Homelab.SignedStores

/-! What the portal's panel reads from the data directory, beside what delayed actions, migrations and the
audit log write there. -/
namespace Homelab
open Js

/-! ### Folders -/

/-- A file: what was written in it, and what `JSON.parse` makes of its text, if it is JSON. -/
structure Stored (α : Type) where
  record : α
  raw : Option JsValue

/-- The files of a folder by their names, if the folder is there -/
abbrev StateFolder (α : Type) := Option (List (JsString × Stored α))

section Folders

variable {α : Type}

/-- The file of an id is written anew. -/
def putStored (id : JsString) (file : Stored α) (folder : StateFolder α) : StateFolder α :=
  some ((folder.getD []).filter (fun f => f.1 ≠ id ++ js ".json") ++ [(id ++ js ".json", file)])

/-- `readJsonDir`: a folder that is missing is empty, and malformed files are skipped. -/
def readJsonDir (folder : StateFolder α) : List JsValue :=
  ((folder.getD []).filter fun f => (js ".json").isSuffixOf f.1).filterMap fun f => f.2.raw

/-- What is persisted in a folder -/
def persisted (folder : StateFolder α) : List α := (folder.getD []).map fun f => f.2.record

end Folders

/-- The data directory, with what has been written about actions so far, and the audit log with the appends
of its writer. Nothing makes the folder `audit`. -/
structure PortalState where
  pendingActions : StateFolder PendingAction
  migrations : StateFolder MigrationState
  audit : StateFolder AuditEntry
  landed : List PendingAction
  log : WriterState × List AppendCall

def PortalState.empty : PortalState := ⟨none, none, none, [], (.fresh none, [])⟩

/-! ### `HomelabDataLoader` -/

def PortalState.loadPendingActions (s : PortalState) : List JsValue := readJsonDir s.pendingActions

def PortalState.loadMigrations (s : PortalState) : List JsValue := readJsonDir s.migrations

/-- Records whose dates cannot be read pass the filter. -/
def PortalState.loadAudit (dateMs : JsString → Option ℤ) (sinceMs : Option ℤ) (s : PortalState) :
    List JsValue :=
  match sinceMs with
  | none => readJsonDir s.audit
  | some sinceMs => (readJsonDir s.audit).filter fun a =>
      (dateMs (property (js "occurred_at") a).coerce).all (sinceMs ≤ ·)

/-! ### The writers -/

/-- The record that `scheduleDelayedAction` persists -/
def scheduledAction (actionId : JsString) (now delayMs : ℤ) (dryRunReport : Option JsString) : PendingAction :=
  ⟨actionId, now, now+delayMs, delayMs, dryRunReport, .pending⟩

/-- A record is persisted by `scheduleDelayedAction`, or with a new status by `cancelDelayedAction` or the
timer, which have read it while it was pending; a migration is saved; or the appends of the audit writer
go on. -/
inductive PortalEvent
  | schedule (actionId : JsString) (now delayMs : ℤ) (dryRunReport : Option JsString)
  | decide (r : PendingAction) (status : PendingStatus)
  | saveMigration (state : MigrationState)
  | append (log : WriterState × List AppendCall)

def PortalState.persist (host : DelayHost) (s : PortalState) (r : PendingAction) : PortalState :=
  let file := Homelab.persist host r
  { s with
    pendingActions := putStored r.actionId ⟨r, file.toOption.join⟩ s.pendingActions
    landed := r :: s.landed }

def PortalState.saveMigration (host : HmacHost) (s : PortalState) (state : MigrationState) : PortalState :=
  { s with
    migrations :=
      putStored state.migrationId ⟨state, (saveMigrationState host state).toOption.join⟩ s.migrations }

def portal (host : DelayHost) (rt : Runtime) (w : AuditWriter) : Automaton PortalState PortalEvent where
  allowed s
    | .schedule actionId now delayMs dryRunReport =>
      ∃ file, persist host (scheduledAction actionId now delayMs dryRunReport) = .ok file
    | .decide r status => r ∈ s.landed ∧ r.status = .pending ∧ status ≠ .pending ∧
        ∃ file, persist host { r with status } = .ok file
    | .saveMigration state => ∃ file, saveMigrationState host.toHmacHost state = .ok file
    | .append log => (auditMutex rt w).Step s.log log
  next s
    | .schedule actionId now delayMs dryRunReport =>
      s.persist host (scheduledAction actionId now delayMs dryRunReport)
    | .decide r status => s.persist host { r with status }
    | .saveMigration state => s.saveMigration host.toHmacHost state
    | .append log => { s with log }

/-! ### What the panel is to show -/

/-- There is one record for each of what was written, and it has these properties. -/
def ShowsEach (records : List JsValue) (written : List Fields) : Prop :=
  ∃ rs, rs.Perm records ∧ List.Forall₂ (fun v fs => ∀ f ∈ fs, property f.1 v = f.2) rs written

/-- What a `PendingActionRecord` has of the action, and its status -/
def actionShown (r : PendingAction) : Fields :=
  [(js "id", .str r.actionId), (js "status", .str r.status.text)]

/-- What a `MigrationRecord` has of the migration -/
def migrationShown (m : MigrationState) : Fields :=
  [(js "migration_id", .str m.migrationId), (js "state", .str m.overallStatus.text)]

/-- What an `AuditRecord` has of the entry -/
def entryShown (e : AuditEntry) : Fields := [(js "type", .str e.event.text), (js "occurred_at", .str e.timestamp)]

structure PanelShows (dateMs : JsString → Option ℤ) (s : PortalState) : Prop where
  pendingActions : ShowsEach s.loadPendingActions ((persisted s.pendingActions).map actionShown)
  migrations : ShowsEach s.loadMigrations ((persisted s.migrations).map migrationShown)
  audit : ShowsEach (s.loadAudit dateMs none) ((entriesOf s.log.2).map entryShown)

/-- No action, no migration and no audit entry is persisted. -/
def NothingPersisted (s : PortalState) : Prop :=
  persisted s.pendingActions = [] ∧ persisted s.migrations = [] ∧ entriesOf s.log.2 = []

/-! ### Envelopes -/

/-- The value is what signing leaves in a file: its properties are the payload and the HMAC. -/
def Enveloped (v : JsValue) : Prop := ∀ k, k ≠ js "payload" → k ≠ js "hmac" → property k v = .undefined

/-- Every file is found by `readJsonDir`, and is an envelope. -/
def EnvelopesOnly {α : Type} (folder : StateFolder α) : Prop :=
  ∀ f ∈ folder.getD [], (js ".json").isSuffixOf f.1 = true ∧ ∃ v, f.2.raw = some v ∧ Enveloped v

theorem enveloped_fields (payload : Option JsValue) (hmac : JsString) :
    Enveloped (.obj (posZeroFields (envelopeFields payload hmac))) := by
  intro k hpayload hhmac
  have hgone : getOwn k (envelopeFields payload hmac) = .undefined := by
    apply LiveValue.getOwn_not_mem
    cases payload <;> simp [envelopeFields, hpayload, hhmac]
  rw [property, JsValue.get?, Option.getD_some, getOwn_posZeroFields, hgone]
  rfl

theorem enveloped_of_signed {host : HmacHost} {fs : LiveFields} {signed : Signed} {file : Option JsValue}
    (hwf : (LiveValue.obj fs).wellFormed = true) (hsign : signPayload host (.obj fs) = .ok signed)
    (hreread : reread signed = .ok file) : ∃ v, file = some v ∧ Enveloped v := by
  obtain ⟨text, key, -, -, rfl⟩ := signPayload_iff.mp hsign
  cases hwritten : (LiveValue.obj fs).written with
  | error message =>
    rw [reread, LiveValue.stringify, written_live_error hwritten] at hreread
    cases hreread
  | ok r =>
    rw [reread_eq hwf hwritten] at hreread
    exact ⟨_, (Except.ok.inj hreread).symm, enveloped_fields _ _⟩

/-- There is a text under another key than those of an envelope. -/
def NamesText (fs : Fields) : Prop := ∃ k s, (k, .str s) ∈ fs ∧ k ≠ js "payload" ∧ k ≠ js "hmac"

theorem actionShown_text (r : PendingAction) : NamesText (actionShown r) :=
  ⟨js "id", r.actionId, List.mem_cons_self .., by decide, by decide⟩

theorem migrationShown_text (m : MigrationState) : NamesText (migrationShown m) :=
  ⟨js "migration_id", m.migrationId, List.mem_cons_self .., by decide, by decide⟩

theorem entryShown_text (e : AuditEntry) : NamesText (entryShown e) :=
  ⟨js "type", e.event.text, List.mem_cons_self .., by decide, by decide⟩

section Envelopes

variable {α : Type} {folder : StateFolder α}

theorem EnvelopesOnly.put (h : EnvelopesOnly folder) (id : JsString) (record : α) {v : JsValue}
    (hv : Enveloped v) : EnvelopesOnly (putStored id ⟨record, some v⟩ folder) := by
  intro f hf
  rcases List.mem_append.mp hf with hf | hf
  · exact h f (List.mem_of_mem_filter hf)
  · rw [List.mem_singleton.mp hf]
    have hsuffix : js ".json" <:+ id ++ js ".json" := List.suffix_append _ _
    exact ⟨List.isSuffixOf_iff_suffix.mpr hsuffix, v, rfl, hv⟩

/-- There is an envelope for each file. -/
theorem EnvelopesOnly.read (h : EnvelopesOnly folder) :
    (readJsonDir folder).length = (persisted folder).length ∧ ∀ v ∈ readJsonDir folder, Enveloped v := by
  have hall : (folder.getD []).filter (fun f => (js ".json").isSuffixOf f.1) = folder.getD [] :=
    List.filter_eq_self.mpr fun f hf => (h f hf).1
  rw [readJsonDir, hall, persisted, List.length_map]
  constructor
  · rw [List.length_filterMap_eq_countP, List.countP_eq_length]
    intro f hf
    obtain ⟨-, v, hv, -⟩ := h f hf
    rw [hv]
    rfl
  · intro v hv
    obtain ⟨f, hf, hraw⟩ := List.mem_filterMap.mp hv
    obtain ⟨-, v', hv', henveloped⟩ := h f hf
    rw [hraw] at hv'
    rw [Option.some.inj hv']
    exact henveloped

/-- Envelopes show nothing: a record that is to have a text under another key than theirs is not among
them. -/
theorem showsEach_enveloped {records : List JsValue} {written : List Fields}
    (h : ∀ v ∈ records, Enveloped v)
    (hwritten : ∀ fs ∈ written, NamesText fs) :
    ShowsEach records written ↔ records = [] ∧ written = [] := by
  constructor
  · rintro ⟨rs, hperm, hshown⟩
    cases hshown with
    | nil => exact ⟨hperm.nil_eq.symm, rfl⟩
    | cons hhead htail =>
      obtain ⟨k, s, hmem, hpayload, hhmac⟩ := hwritten _ (List.mem_cons_self ..)
      have hgone := h _ (hperm.subset (List.mem_cons_self ..)) k hpayload hhmac
      rw [hhead _ hmem] at hgone
      cases hgone
  · rintro ⟨rfl, rfl⟩
    exact ⟨[], .refl _, .nil⟩

end Envelopes

/-! ### Every state -/

/-- The folders hold envelopes, and there is no folder `audit`. -/
structure Unread (s : PortalState) : Prop where
  pendingActions : EnvelopesOnly s.pendingActions
  migrations : EnvelopesOnly s.migrations
  audit : s.audit = none

section Runs

variable {host : DelayHost} {rt : Runtime} {w : AuditWriter} {s : PortalState}

theorem Unread.persist (h : Unread s) {r : PendingAction} {file : Option JsValue}
    (hfile : persist host r = .ok file) : Unread (s.persist host r) := by
  obtain ⟨signed, hsign, -, hreread⟩ := persist_iff.mp hfile
  obtain ⟨v, rfl, hv⟩ := enveloped_of_signed (r.wellFormed_live host) hsign hreread
  refine ⟨?_, h.migrations, h.audit⟩
  rw [PortalState.persist, hfile]
  exact h.pendingActions.put r.actionId r hv

theorem Unread.saveMigration (h : Unread s) {state : MigrationState} {file : Option JsValue}
    (hfile : saveMigrationState host.toHmacHost state = .ok file) :
    Unread (s.saveMigration host.toHmacHost state) := by
  obtain ⟨signed, hsign, -, hreread⟩ := saveMigrationState_iff.mp hfile
  obtain ⟨v, rfl, hv⟩ := enveloped_of_signed state.wellFormed_live hsign hreread
  refine ⟨h.pendingActions, ?_, h.audit⟩
  rw [PortalState.saveMigration, hfile]
  exact h.migrations.put state.migrationId state hv

theorem Unread.next (h : Unread s) {e : PortalEvent} (ha : (portal host rt w).allowed s e) :
    Unread ((portal host rt w).next s e) := by
  cases e with
  | schedule actionId now delayMs dryRunReport =>
    obtain ⟨file, hfile⟩ := ha
    exact h.persist hfile
  | decide r status =>
    obtain ⟨-, -, -, file, hfile⟩ := ha
    exact h.persist hfile
  | saveMigration state =>
    obtain ⟨file, hfile⟩ := ha
    exact h.saveMigration hfile
  | append log => exact ⟨h.pendingActions, h.migrations, h.audit⟩

theorem showsEach_persisted {α : Type} {folder : StateFolder α} {shown : α → Fields} (h : EnvelopesOnly folder)
    (hshown : ∀ a, NamesText (shown a)) :
    ShowsEach (readJsonDir folder) ((persisted folder).map shown) ↔ persisted folder = [] := by
  obtain ⟨hlength, henveloped⟩ := h.read
  rw [showsEach_enveloped henveloped, List.map_eq_nil_iff, ← List.length_eq_zero_iff, hlength,
    List.length_eq_zero_iff, and_self]
  intro fs hfs
  obtain ⟨a, -, rfl⟩ := List.mem_map.mp hfs
  exact hshown a

theorem unread_reached (h : (portal host rt w).Reaches Automaton.anyEvent .empty s) : Unread s := by
  have hnone {α : Type} : EnvelopesOnly (none : StateFolder α) := fun f hf => absurd hf List.not_mem_nil
  exact h.invariant ⟨hnone, hnone, rfl⟩ fun _ _ hunread ha _ => hunread.next ha

end Runs

/-- In every state that the writers produce, the panel shows what they wrote only if they have written
nothing: of each action and each migration it loads the signed envelope, which has neither the id nor the
status, and of the audit log it loads nothing. -/
theorem panel_shows_iff (host : DelayHost) (rt : Runtime) (w : AuditWriter)
    (dateMs : JsString → Option ℤ) (s : PortalState)
    (h : (portal host rt w).Reaches Automaton.anyEvent .empty s) :
    (PanelShows dateMs s ↔ NothingPersisted s) ∧
      s.loadPendingActions.length = (persisted s.pendingActions).length ∧
      s.loadMigrations.length = (persisted s.migrations).length ∧ s.loadAudit dateMs none = [] := by
  have hunread := unread_reached h
  have haudit : s.loadAudit dateMs none = [] := by
    rw [PortalState.loadAudit, hunread.audit]
    rfl
  have hpending : ShowsEach s.loadPendingActions ((persisted s.pendingActions).map actionShown) ↔
      persisted s.pendingActions = [] :=
    showsEach_persisted hunread.pendingActions actionShown_text
  have hmigrations : ShowsEach s.loadMigrations ((persisted s.migrations).map migrationShown) ↔
      persisted s.migrations = [] :=
    showsEach_persisted hunread.migrations migrationShown_text
  have hentries : ShowsEach (s.loadAudit dateMs none) ((entriesOf s.log.2).map entryShown) ↔
      entriesOf s.log.2 = [] := by
    rw [haudit, showsEach_enveloped (fun v hv => absurd hv List.not_mem_nil), List.map_eq_nil_iff]
    · exact and_iff_right rfl
    · intro fs hfs
      obtain ⟨e, -, rfl⟩ := List.mem_map.mp hfs
      exact entryShown_text e
  refine ⟨⟨fun hshows => ?_, fun hnothing => ?_⟩, hunread.pendingActions.read.1, hunread.migrations.read.1,
    haudit⟩
  · exact ⟨hpending.mp hshows.pendingActions, hmigrations.mp hshows.migrations, hentries.mp hshows.audit⟩
  · obtain ⟨hactions, hmoves, hlog⟩ := hnothing
    exact ⟨hpending.mpr hactions, hmigrations.mpr hmoves, hentries.mpr hlog⟩

/-! ### One action -/

/-- An action is scheduled for a second later. -/
def oneScheduled : PortalState := PortalState.empty.persist sampleHost (scheduledAction (js "mig-1") 0 1000 none)

theorem oneScheduled_reached :
    (portal sampleHost sampleRuntime sampleWriter).Reaches Automaton.anyEvent .empty oneScheduled := by
  obtain ⟨raw, -, hpersist, -⟩ :=
    @readRecord_persist sampleHost (scheduledAction (js "mig-1") 0 1000 none) _ sample_secret (by decide)
  have hallowed : (portal sampleHost sampleRuntime sampleWriter).allowed .empty
      (.schedule (js "mig-1") 0 1000 none) := ⟨_, hpersist⟩
  exact (Automaton.Reaches.refl PortalState.empty).step hallowed trivial

theorem panel_shows_iff_scheduled : PanelShows (fun _ => none) oneScheduled ↔ NothingPersisted oneScheduled :=
  (panel_shows_iff sampleHost sampleRuntime sampleWriter (fun _ => none) _ oneScheduled_reached).1

/-- The panel does not show the action that is pending. -/
theorem scheduled_not_shown : ¬ ∀ (host : DelayHost) (rt : Runtime) (w : AuditWriter)
    (dateMs : JsString → Option ℤ) (s : PortalState),
      (portal host rt w).Reaches Automaton.anyEvent .empty s → PanelShows dateMs s := by
  intro h
  have hshown := (h sampleHost sampleRuntime sampleWriter (fun _ => none) _ oneScheduled_reached).pendingActions
  have hunread := unread_reached oneScheduled_reached
  have hnone := (showsEach_persisted hunread.pendingActions actionShown_text).mp hshown
  cases hnone

end Homelab
