import Homelab.Automaton
import Homelab.MigrationState
import Homelab.PendingAction

/-! The three stores of signed files under one secret, and an attacker who puts envelopes
that were signed here wherever the files are. -/
namespace Homelab
open Js

/-! ### Stores -/

inductive Store
  | migrationState
  | pendingAction
  | deploymentRecord
deriving DecidableEq

/-- The payload that the store's reader accepts from the file of a key. -/
def Store.read (host : HmacHost) (key : JsString) (raw : JsValue) : Store → Option JsValue
  | .migrationState => (loadMigrationState host key raw).toOption
  | .pendingAction => (readRecord host key (some raw)).toOption.join
  | .deploymentRecord => (readSignedRecord host key (some raw)).toOption.join

/-- The test that the reader makes besides the HMAC. -/
def Store.hasShape (raw : JsValue) : Store → Bool
  | .migrationState => isSignedMigrationState raw
  | .pendingAction => isSignedPendingAction raw
  | .deploymentRecord => true

/-- The store's writer leaves `raw` in the file of the key when it saves the value. -/
inductive Saves (host : DelayHost) : Store → JsString → LiveValue → JsValue → Prop
  | migrationState (s : MigrationState) (raw : JsValue)
      (h : saveMigrationState host.toHmacHost s = .ok (some raw)) :
      Saves host .migrationState s.migrationId s.live raw
  | pendingAction (r : PendingAction) (raw : JsValue) (h : persist host r = .ok (some raw)) :
      Saves host .pendingAction r.actionId (.obj (r.fields host)) raw
  | deploymentRecord (filePath : JsString) (payload : ProperValue) (raw : JsValue)
      (h : persistSignedRecord host.toHmacHost payload = .ok (some raw)) :
      Saves host .deploymentRecord filePath payload.val raw

structure SavedFile where
  store : Store
  key : JsString
  payload : LiveValue
  raw : JsValue

/-- The files of the stores, what the stores have saved so far, and every envelope that
was signed under the secret. -/
structure StoreState where
  files : Store → JsString → Option JsValue
  saved : List SavedFile
  envelopes : List JsValue

def StoreState.empty : StoreState := ⟨fun _ _ => none, [], []⟩

/-- Another module may sign an envelope for a file of its own; the attacker copies an
envelope to a file or removes a file. -/
inductive StoreEvent
  | save (file : SavedFile)
  | signElsewhere (payload : ProperValue) (raw : JsValue)
  | copy (store : Store) (key : JsString) (raw : JsValue)
  | remove (store : Store) (key : JsString)

def putFile (files : Store → JsString → Option JsValue) (store : Store) (key : JsString)
    (file : Option JsValue) : Store → JsString → Option JsValue :=
  fun store' key' => if store' = store ∧ key' = key then file else files store' key'

def signedStores (host : DelayHost) : Automaton StoreState StoreEvent where
  allowed s
    | .save file => Saves host file.store file.key file.payload file.raw
    | .signElsewhere payload raw =>
      persistSignedRecord host.toHmacHost payload = .ok (some raw)
    | .copy _ _ raw => raw ∈ s.envelopes
    | .remove _ _ => True
  next s
    | .save file =>
      ⟨putFile s.files file.store file.key (some file.raw), file :: s.saved, file.raw :: s.envelopes⟩
    | .signElsewhere _ raw => { s with envelopes := raw :: s.envelopes }
    | .copy store key raw => { s with files := putFile s.files store key (some raw) }
    | .remove store key => { s with files := putFile s.files store key none }

/-- What a reader accepts for a key was saved by its store under that key. -/
def Authentic (host : DelayHost) (s : StoreState) : Prop :=
  ∀ store key raw payload, s.files store key = some raw →
    store.read host.toHmacHost key raw = some payload →
      ∃ file ∈ s.saved, file.store = store ∧ file.key = key ∧
        ∃ j, file.payload.written = .ok (some j) ∧ payload = j.posZero

/-- The attacker copies an envelope to a file that its store has saved it in, or one that
lacks the shape that the reader asks for. -/
def InPlace (s : StoreState) : StoreEvent → Prop
  | .copy store key raw =>
    (∃ payload, ⟨store, key, payload, raw⟩ ∈ s.saved) ∨ store.hasShape raw = false
  | _ => True

variable {host : DelayHost}

/-! ### Runs -/

theorem Store.read_some {store : Store} {key : JsString} {raw payload : JsValue}
    (h : store.read host.toHmacHost key raw = some payload) :
    store.hasShape raw = true ∧ verifyPayload host.toHmacHost raw = true ∧
      payload = property (js "payload") raw := by
  cases store with
  | migrationState =>
    simp only [Store.read, loadMigrationState] at h
    split_ifs at h with hraw
    · rw [Bool.and_eq_true] at hraw
      exact ⟨hraw.1, hraw.2, (Option.some.inj h).symm⟩
    · cases h
  | pendingAction =>
    simp only [Store.read, readRecord] at h
    split_ifs at h with hraw
    · rw [Bool.and_eq_true] at hraw
      exact ⟨hraw.1, hraw.2, (Option.some.inj h).symm⟩
    · cases h
  | deploymentRecord =>
    simp only [Store.read, readSignedRecord] at h
    split_ifs at h with hraw
    · exact ⟨rfl, hraw, (Option.some.inj h).symm⟩
    · cases h

/-- Every store signs what it saves. -/
theorem Saves.signed {store : Store} {key : JsString} {v : LiveValue} {raw : JsValue}
    (h : Saves host store key v raw) : ∃ signed, v.wellFormed = true ∧
      signPayload host.toHmacHost v = .ok signed ∧ reread signed = .ok (some raw) := by
  cases h with
  | migrationState s raw h =>
    obtain ⟨signed, hsign, _, hreread⟩ := saveMigrationState_iff.mp h
    exact ⟨signed, s.wellFormed_live, hsign, hreread⟩
  | pendingAction r raw h =>
    obtain ⟨signed, hsign, _, hreread⟩ := persist_iff.mp h
    exact ⟨signed, r.wellFormed_live host, hsign, hreread⟩
  | deploymentRecord filePath payload raw h =>
    rw [persistSignedRecord, LiveValue.bind_ok_iff] at h
    obtain ⟨signed, hsign, hreread⟩ := h
    exact ⟨signed, payload.property, hsign, hreread⟩

/-- An accepted file holds what `JSON.stringify` wrote for the value that was saved. -/
theorem Saves.payload {store : Store} {key : JsString} {v : LiveValue} {raw : JsValue}
    (h : Saves host store key v raw) (hverify : verifyPayload host.toHmacHost raw = true) :
    ∃ j, v.written = .ok (some j) ∧ property (js "payload") raw = j.posZero := by
  obtain ⟨signed, hwf, hsign, hreread⟩ := h.signed
  obtain ⟨text, key', _, _, rfl⟩ := signPayload_iff.mp hsign
  cases hwritten : v.written with
  | error message =>
    rw [reread, LiveValue.stringify, written_live_error hwritten] at hreread
    cases hreread
  | ok r =>
    rw [reread_eq hwf hwritten] at hreread
    obtain rfl := Option.some.inj (Except.ok.inj hreread)
    obtain ⟨_, _, _, text', _, _, htext', _⟩ := verifyPayload_iff.mp hverify
    rw [property_payload] at htext' ⊢
    cases r with
    | none => cases htext'
    | some j => exact ⟨j, rfl, rfl⟩

/-- Every file of the right shape was saved where it is. -/
structure Kept (host : DelayHost) (s : StoreState) : Prop where
  files : ∀ store key raw, s.files store key = some raw → store.hasShape raw = true →
    ∃ payload, ⟨store, key, payload, raw⟩ ∈ s.saved
  saved : ∀ file ∈ s.saved, Saves host file.store file.key file.payload file.raw

theorem putFile_some {files : Store → JsString → Option JsValue} {store store' : Store}
    {key key' : JsString} {file : Option JsValue} {raw : JsValue}
    (h : putFile files store key file store' key' = some raw) :
    (store' = store ∧ key' = key ∧ file = some raw) ∨ files store' key' = some raw := by
  rw [putFile] at h
  split_ifs at h with heq
  · exact Or.inl ⟨heq.1, heq.2, h⟩
  · exact Or.inr h

theorem Kept.next {s : StoreState} {e : StoreEvent} (h : Kept host s)
    (ha : (signedStores host).allowed s e) (hplace : InPlace s e) :
    Kept host ((signedStores host).next s e) := by
  cases e with
  | save file =>
    refine ⟨?_, List.forall_mem_cons.mpr ⟨ha, h.saved⟩⟩
    intro store key raw hfile hshape
    rcases putFile_some hfile with ⟨rfl, rfl, hraw⟩ | hfile
    · obtain rfl := Option.some.inj hraw
      exact ⟨file.payload, List.mem_cons_self ..⟩
    · obtain ⟨payload, hmem⟩ := h.files store key raw hfile hshape
      exact ⟨payload, List.mem_cons_of_mem _ hmem⟩
  | signElsewhere payload raw => exact ⟨h.files, h.saved⟩
  | copy store key raw =>
    refine ⟨?_, h.saved⟩
    intro store' key' raw' hfile hshape
    rcases putFile_some hfile with ⟨rfl, rfl, hraw⟩ | hfile
    · obtain rfl := Option.some.inj hraw
      rcases hplace with hsaved | hno
      · exact hsaved
      · rw [hno] at hshape
        cases hshape
    · exact h.files store' key' raw' hfile hshape
  | remove store key =>
    refine ⟨?_, h.saved⟩
    intro store' key' raw' hfile hshape
    rcases putFile_some hfile with ⟨_, _, hraw⟩ | hfile
    · cases hraw
    · exact h.files store' key' raw' hfile hshape

theorem Kept.authentic {s : StoreState} (h : Kept host s) : Authentic host s := by
  intro store key raw payload hfile hread
  obtain ⟨hshape, hverify, rfl⟩ := Store.read_some hread
  obtain ⟨v, hmem⟩ := h.files store key raw hfile hshape
  obtain ⟨j, hj, hpayload⟩ := (h.saved _ hmem).payload hverify
  exact ⟨_, hmem, rfl, rfl, j, hj, hpayload⟩

def samplePhase (name : MigrationPhaseName) : MigrationPhase := ⟨name, .pending, none, none, none, none⟩

def samplePlan : Migration where
  migrationId := js "01ARZ3NDEKTSV4RRFFQ69G5FAV"
  sourcePlatform := js "portainer"
  targetPlatform := js "k3s"
  description := js "move"
  initiatedBy := js "ada"
  initiatedAt := js "2026-01-01T00:00:00.000Z"
  approvalDelaySeconds := .ofNat 86400
  phases := [samplePhase .identifyResources, samplePhase .planTarget, samplePhase .dryRun,
    samplePhase .approvalDelay, samplePhase .execute]

def sampleState : MigrationState := ⟨samplePlan, 0, .inFlight⟩

def otherId : JsString := js "01BX5ZZKBKACTAV9WEVGEMMVRZ"

/-- The digest of the state's canonical text under a secret of 32 letters. -/
def sampleHost : DelayHost where
  secret := some (List.replicate 32 0x78)
  hmacSha256 _ _ :=
    bufferFromHex (js "9c5c3d3a8b0ec4fe64fe62c6e5c09950e0f7f1278b7510c49b98fbd5f6146182")
  toISOString _ := js "2026-01-01T00:00:00.000Z"

theorem sample_secret :
    sampleHost.toHmacHost.getSecret = .ok (List.replicate 32 0x78) := rfl

theorem samplePlan_storable : samplePlan.Storable := by
  refine ⟨rfl, ?_⟩
  intro p hp
  have hsample : ∃ name, p = samplePhase name := by
    simp only [samplePlan, List.mem_cons, List.not_mem_nil, or_false] at hp
    rcases hp with rfl | rfl | rfl | rfl | rfl <;> exact ⟨_, rfl⟩
  obtain ⟨name, rfl⟩ := hsample
  exact ⟨fun _ h => (by cases h), fun _ h => (by cases h)⟩

/-- The sample's file, which a reader accepts under any id. -/
theorem sample_saved : ∃ raw, saveMigrationState sampleHost.toHmacHost sampleState = .ok (some raw) ∧
    ∀ id, ∃ payload, loadMigrationState sampleHost.toHmacHost id raw = .ok payload := by
  obtain ⟨raw, hsave⟩ := saves_of_storable (s := sampleState) sample_secret
    (by decide) samplePlan_storable
  have hfaithful := ((MigrationState.storable_live (s := sampleState)).mpr samplePlan_storable).faithful
  exact ⟨raw, hsave, fun id => loads_of_faithful id hsave hfaithful⟩

/-- The state after the sample was saved and its envelope was copied to a key. -/
def copied (key : JsString) (raw : JsValue) : StoreState :=
  (signedStores sampleHost).next
    ((signedStores sampleHost).next .empty (.save ⟨.migrationState, sampleState.migrationId,
      sampleState.live, raw⟩)) (.copy .migrationState key raw)

theorem copied_reached {C : StoreState → StoreEvent → Prop} {key : JsString} {raw : JsValue}
    (hsave : saveMigrationState sampleHost.toHmacHost sampleState = .ok (some raw))
    (hC : ∀ s file, C s (.save file))
    (hcopy : C ((signedStores sampleHost).next .empty (.save ⟨.migrationState,
      sampleState.migrationId, sampleState.live, raw⟩)) (.copy .migrationState key raw)) :
    (signedStores sampleHost).Reaches C .empty (copied key raw) :=
  ((Automaton.Reaches.refl _).step (Saves.migrationState sampleState raw hsave) (hC _ _)).step
    (List.mem_cons_self ..) hcopy

end Homelab
