import Homelab.Storable

/-! Migration states, and the signed files they are kept in. A file is what `JSON.parse`
makes of it. -/
namespace Homelab
open Js

inductive MigrationPhaseName
  | identifyResources
  | planTarget
  | dryRun
  | approvalDelay
  | execute
deriving DecidableEq

def MigrationPhaseName.text : MigrationPhaseName → JsString
  | .identifyResources => js "identify-resources"
  | .planTarget => js "plan-target"
  | .dryRun => js "dry-run"
  | .approvalDelay => js "approval-delay"
  | .execute => js "execute"

inductive PhaseStatus
  | pending
  | inProgress
  | complete
  | failed
  | cancelled
deriving DecidableEq

def PhaseStatus.text : PhaseStatus → JsString
  | .pending => js "pending"
  | .inProgress => js "in-progress"
  | .complete => js "complete"
  | .failed => js "failed"
  | .cancelled => js "cancelled"

inductive OverallStatus
  | inFlight
  | complete
  | cancelled
  | failed
deriving DecidableEq

def OverallStatus.text : OverallStatus → JsString
  | .inFlight => js "in-flight"
  | .complete => js "complete"
  | .cancelled => js "cancelled"
  | .failed => js "failed"

/-- What the orchestrator keeps of a thrown value. -/
structure PhaseError where
  message : ProperValue
  code : Option ProperValue

structure MigrationPhase where
  name : MigrationPhaseName
  status : PhaseStatus
  startedAt : Option JsString
  completedAt : Option JsString
  output : Option ProperValue
  error : Option PhaseError

/-- A migration plan; its `classification` and `requires_typed_confirm` are constants. -/
structure Migration where
  migrationId : JsString
  sourcePlatform : JsString
  targetPlatform : JsString
  description : JsString
  initiatedBy : JsString
  initiatedAt : JsString
  approvalDelaySeconds : JsNumber
  phases : List MigrationPhase

structure MigrationState extends Migration where
  currentPhaseIndex : ℕ
  overallStatus : OverallStatus

/-! ### States as JavaScript objects -/

def PhaseError.live (e : PhaseError) : LiveValue :=
  .obj ((js "message", e.message.val) :: optField (js "code") (e.code.map Subtype.val))

def MigrationPhase.live (p : MigrationPhase) : LiveValue :=
  .obj ([(js "name", .str p.name.text), (js "status", .str p.status.text)] ++
    optField (js "started_at") (p.startedAt.map .str) ++
    optField (js "completed_at") (p.completedAt.map .str) ++
    optField (js "output") (p.output.map Subtype.val) ++ optField (js "error") (p.error.map PhaseError.live))

def MigrationState.fields (s : MigrationState) : LiveFields :=
  [(js "migration_id", .str s.migrationId), (js "source_platform", .str s.sourcePlatform),
    (js "target_platform", .str s.targetPlatform), (js "classification", .str (js "architectural")),
    (js "description", .str s.description), (js "initiated_by", .str s.initiatedBy),
    (js "initiated_at", .str s.initiatedAt),
    (js "approval_delay_seconds", .num s.approvalDelaySeconds),
    (js "requires_typed_confirm", .prim ⟨.bool true, trivial⟩),
    (js "phases", .arr ((s.phases.map MigrationPhase.live).map some)),
    (js "current_phase_index", .num (.ofNat s.currentPhaseIndex)),
    (js "overall_status", .str s.overallStatus.text)]

def MigrationState.live (s : MigrationState) : LiveValue := .obj s.fields

/-! ### `state-store.ts` -/

/-- A letter of Crockford's base 32. -/
def isCrockford (c : CodeUnit) : Bool :=
  let n := c.toNat
  (0x30 ≤ n && n ≤ 0x39) || (0x41 ≤ n && n ≤ 0x48) || n = 0x4A || n = 0x4B || n = 0x4D || n = 0x4E ||
    (0x50 ≤ n && n ≤ 0x54) || (0x56 ≤ n && n ≤ 0x5A)

/-- `ULID_RE` -/
def isUlid (id : JsString) : Bool := id.length = 26 && id.all isCrockford

/-- What `saveMigrationState` leaves in the file of the state's id, or what it throws. -/
def saveMigrationState (host : HmacHost) (state : MigrationState) :
    Except JsString (Option JsValue) := do
  let signed ← signPayload host state.live
  if isUlid state.migrationId then reread signed
  else .error (js "Invalid migration id: " ++ state.migrationId)

def isSignedMigrationState (v : JsValue) : Bool :=
  let p := property (js "payload") v
  isString (property (js "hmac") v) && isString (property (js "migration_id") p) &&
    isNumber (property (js "current_phase_index") p) && isArray (property (js "phases") p)

/-- `loadMigrationState` from the value that its file holds. -/
def loadMigrationState (host : HmacHost) (id : JsString) (raw : JsValue) :
    Except JsString JsValue :=
  if isSignedMigrationState raw && verifyPayload host raw then .ok (property (js "payload") raw)
  else .error (js "Tampered migration state: " ++ id)

/-! ### What can be stored -/

def PhaseError.Storable (e : PhaseError) : Prop :=
  e.message.val.Storable ∧ ∀ code, e.code = some code → code.val.Storable

/-- The parts of a phase that come from handlers can be stored. -/
def MigrationPhase.Storable (p : MigrationPhase) : Prop :=
  (∀ output, p.output = some output → output.val.Storable) ∧ ∀ e, p.error = some e → e.Storable

def Migration.Storable (m : Migration) : Prop :=
  m.approvalDelaySeconds.isFinite = true ∧ ∀ p ∈ m.phases, p.Storable

theorem PhaseError.storable_live {e : PhaseError} : e.live.Storable ↔ e.Storable := by
  rw [PhaseError.live, LiveValue.storable_obj, List.forall_mem_cons, forall_optValue]
  rfl

theorem MigrationPhase.storable_live {p : MigrationPhase} : p.live.Storable ↔ p.Storable := by
  have herror : (∀ w, p.error.map PhaseError.live = some w → w.Storable) ↔
      ∀ e, p.error = some e → e.Storable := by
    cases p.error with
    | none => exact ⟨fun _ _ h => (by cases h), fun _ _ h => (by cases h)⟩
    | some e =>
      simp only [Option.map_some, Option.some.injEq, forall_eq', PhaseError.storable_live]
  rw [MigrationPhase.live, LiveValue.storable_obj]
  simp only [List.forall_mem_append, forall_optValue, forall_optField, herror, List.forall_mem_cons,
    LiveValue.storable_str, true_and, MigrationPhase.Storable, List.not_mem_nil, false_implies,
    implies_true]
  constructor
  · intro h
    exact ⟨h.1.2, h.2⟩
  · intro h
    exact ⟨⟨⟨storable_text _, storable_text _⟩, h.1⟩, h.2⟩

theorem MigrationState.storable_live {s : MigrationState} :
    s.live.Storable ↔ s.toMigration.Storable := by
  have hphases : (∀ v ∈ s.phases.map MigrationPhase.live, v.Storable) ↔
      ∀ p ∈ s.phases, p.Storable := by
    rw [List.forall_mem_map]
    exact forall₂_congr fun p _ => p.storable_live
  have hindex : (JsNumber.ofNat s.currentPhaseIndex).isFinite = true := rfl
  rw [MigrationState.live, MigrationState.fields, LiveValue.storable_obj]
  simp only [List.forall_mem_cons, LiveValue.storable_str, storable_num, LiveValue.storable_arr,
    hphases, hindex, true_and, List.not_mem_nil, false_implies, implies_true, and_true]
  constructor
  · intro h
    exact ⟨h.1, h.2.2⟩
  · intro h
    exact ⟨h.1, LiveValue.storable_prim _ rfl, h.2⟩

/-! ### Saving and loading -/

theorem PhaseError.wellFormed_live (e : PhaseError) : e.live.wellFormed = true := by
  rw [PhaseError.live, LiveValue.wellFormed_obj, List.forall_mem_cons]
  refine ⟨?_, e.message.property, wellFormed_optValue⟩
  have hkeys : OwnOrder [js "message", js "code"] := by decide
  exact hkeys.sublist ((optField_keys _ _).cons_cons _)

theorem MigrationPhase.wellFormed_live (p : MigrationPhase) : p.live.wellFormed = true := by
  have htext (s : Option JsString) : ∀ w, s.map LiveValue.str = some w → w.wellFormed = true := by
    intro w hw
    obtain ⟨t, _, rfl⟩ := Option.map_eq_some_iff.mp hw
    rfl
  have herror : ∀ w, p.error.map PhaseError.live = some w → w.wellFormed = true := by
    intro w hw
    obtain ⟨e, _, rfl⟩ := Option.map_eq_some_iff.mp hw
    exact e.wellFormed_live
  rw [MigrationPhase.live, LiveValue.wellFormed_obj]
  constructor
  · have hkeys : OwnOrder [js "name", js "status", js "started_at", js "completed_at", js "output",
        js "error"] := by decide
    refine List.Pairwise.sublist ?_ hkeys
    simp only [List.map_append]
    exact ((((List.Sublist.refl [js "name", js "status"]).append (optField_keys _ _)).append
      (optField_keys _ _)).append (optField_keys _ _)).append (optField_keys _ _)
  · simp only [List.forall_mem_append]
    refine ⟨⟨⟨⟨?_, wellFormed_optField (htext _)⟩, wellFormed_optField (htext _)⟩,
      wellFormed_optValue⟩, wellFormed_optField herror⟩
    intro f hf
    simp only [List.mem_cons, List.not_mem_nil, or_false] at hf
    rcases hf with rfl | rfl
    · rfl
    · rfl

theorem MigrationState.wellFormed_live (s : MigrationState) : s.live.wellFormed = true := by
  rw [MigrationState.live, MigrationState.fields, LiveValue.wellFormed_obj]
  constructor
  · change OwnOrder [js "migration_id", js "source_platform", js "target_platform",
      js "classification", js "description", js "initiated_by", js "initiated_at",
      js "approval_delay_seconds", js "requires_typed_confirm", js "phases",
      js "current_phase_index", js "overall_status"]
    decide
  · have htext (t : JsString) : (LiveValue.str t).wellFormed = true := rfl
    have hnum (x : JsNumber) : (LiveValue.num x).wellFormed = true := rfl
    have hphases : (LiveValue.arr ((s.phases.map MigrationPhase.live).map some)).wellFormed = true := by
      rw [LiveValue.wellFormed_arr, List.forall_mem_map]
      exact fun p _ => p.wellFormed_live
    simp only [List.forall_mem_cons, htext, hnum, hphases, List.not_mem_nil, false_implies,
      implies_true, and_true, true_and]
    rfl

variable {host : HmacHost} {s : MigrationState}

theorem saveMigrationState_iff {r : Option JsValue} : saveMigrationState host s = .ok r ↔
    ∃ signed, signPayload host s.live = .ok signed ∧ isUlid s.migrationId = true ∧
      reread signed = .ok r := by
  rw [saveMigrationState, LiveValue.bind_ok_iff]
  apply exists_congr
  intro signed
  apply and_congr_right
  intro _
  split_ifs with hid
  · exact ⟨fun h => ⟨hid, h⟩, And.right⟩
  · exact ⟨fun h => (by cases h), fun h => absurd h.1 hid⟩

/-- What a file holds that a state was saved in. -/
theorem saved_eq {raw : JsValue} (h : saveMigrationState host s = .ok (some raw)) :
    ∃ signed gs, signPayload host s.live = .ok signed ∧ reread signed = .ok (some raw) ∧
      s.live.written = .ok (some (.obj gs)) ∧
      raw = .obj (posZeroFields (envelopeFields (some (.obj gs)) signed.hmac)) := by
  obtain ⟨signed, hsign, _, hreread⟩ := saveMigrationState_iff.mp h
  obtain ⟨gs, hwritten, hraw⟩ := reread_object s.wellFormed_live hsign hreread
  exact ⟨signed, gs, hsign, hreread, hwritten, hraw⟩

/-- The file that a state was saved in has the shape that the reader asks for. -/
theorem isSignedMigrationState_saved {raw : JsValue}
    (h : saveMigrationState host s = .ok (some raw)) : isSignedMigrationState raw = true := by
  obtain ⟨signed, gs, _, _, hwritten, rfl⟩ := saved_eq h
  have hid : property (js "migration_id") (JsValue.obj gs).posZero = .str s.migrationId :=
    property_text s.wellFormed_live hwritten (by simp [MigrationState.fields])
  have hindex : (js "current_phase_index", .num (.ofNat s.currentPhaseIndex)) ∈ s.fields := by
    simp [MigrationState.fields]
  have hphases : (js "phases", .arr ((s.phases.map MigrationPhase.live).map some)) ∈ s.fields := by
    simp [MigrationState.fields]
  obtain ⟨ri, hri, hindex⟩ := property_written s.wellFormed_live hwritten hindex
  obtain ⟨rp, hrp, hphases⟩ := property_written s.wellFormed_live hwritten hphases
  obtain ⟨ps, _, rfl⟩ := LiveValue.written_arr_iff.mp hrp
  cases hri
  rw [isSignedMigrationState]
  simp only [property_payload, property_hmac, Option.getD_some, hid, hindex, hphases]
  rfl

theorem loadMigrationState_ok {id : JsString} {raw payload : JsValue}
    (h : loadMigrationState host id raw = .ok payload) :
    verifyPayload host raw = true ∧ payload = property (js "payload") raw := by
  rw [loadMigrationState] at h
  split_ifs at h with hraw
  rw [Bool.and_eq_true] at hraw
  exact ⟨hraw.2, (Except.ok.inj h).symm⟩

theorem loads_of_faithful (id : JsString) {raw : JsValue}
    (h : saveMigrationState host s = .ok (some raw)) (hfaithful : s.live.Faithful) :
    ∃ payload, loadMigrationState host id raw = .ok payload := by
  obtain ⟨signed, gs, hsign, hreread, _, _⟩ := saved_eq h
  obtain ⟨raw', hreread', hverify⟩ := roundTrips_of_faithful s.wellFormed_live hsign hfaithful
  rw [hreread] at hreread'
  obtain rfl := Option.some.inj (Except.ok.inj hreread')
  exact ⟨_, by rw [loadMigrationState, isSignedMigrationState_saved h, hverify]; rfl⟩

/-- A file in which a state was saved is loaded exactly when the state reads back. -/
theorem loads_iff {id : JsString} {raw : JsValue} (h : saveMigrationState host s = .ok (some raw))
    (hcollision : NoCollision host s.live) :
    (∃ payload, loadMigrationState host id raw = .ok payload) ↔ s.live.Faithful := by
  obtain ⟨signed, gs, hsign, hreread, _, _⟩ := saved_eq h
  constructor
  · intro hload
    obtain ⟨payload, hload⟩ := hload
    apply faithful_of_roundTrips s.wellFormed_live hsign hcollision
    exact ⟨raw, hreread, (loadMigrationState_ok hload).1⟩
  · exact loads_of_faithful id h

/-- What is loaded has the status and the id that were saved. -/
theorem loaded_property {id : JsString} {raw payload : JsValue}
    (h : saveMigrationState host s = .ok (some raw))
    (hload : loadMigrationState host id raw = .ok payload) :
    property (js "overall_status") payload = .str s.overallStatus.text ∧
      property (js "migration_id") payload = .str s.migrationId := by
  obtain ⟨signed, gs, _, _, hwritten, rfl⟩ := saved_eq h
  rw [(loadMigrationState_ok hload).2, property_payload, Option.getD_some]
  exact ⟨property_text s.wellFormed_live hwritten (by simp [MigrationState.fields]),
    property_text s.wellFormed_live hwritten (by simp [MigrationState.fields])⟩

/-- A state that can be stored is saved, once there is a secret and the id is one. -/
theorem saves_of_storable {key : Bytes} (hkey : host.getSecret = .ok key)
    (hid : isUlid s.migrationId = true) (h : s.toMigration.Storable) :
    ∃ raw, saveMigrationState host s = .ok (some raw) := by
  have hlive := MigrationState.storable_live.mpr h
  obtain ⟨text, htext⟩ := hlive.signable
  have hsign := signPayload_iff.mpr ⟨text, key, htext, hkey, rfl⟩
  obtain ⟨raw, hreread, _⟩ := roundTrips_of_faithful s.wellFormed_live hsign hlive.faithful
  exact ⟨raw, saveMigrationState_iff.mpr ⟨_, hsign, hid, hreread⟩⟩

end Homelab
