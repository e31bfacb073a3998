import Homelab.MigrationState

/-! Values and migration states as they come back from the files they were saved in. -/
namespace Homelab
open Js

/-! ### What `JSON.parse` makes of a value -/

mutual
theorem isJson_posZero : ∀ v : JsValue, v.posZero.isJson = v.isJson
  | .num (.fin _) => rfl
  | .num .nan => rfl
  | .num (.inf _) => rfl
  | .arr es => allJson_posZero es
  | .obj fs => by
    rw [JsValue.posZero, JsValue.isJson, JsValue.isJson, posZeroFields_keys, fieldsJson_posZero fs]
  | .undefined => rfl
  | .null => rfl
  | .bool _ => rfl
  | .str _ => rfl
  | .bigint _ => rfl
  | .function => rfl
  | .symbol => rfl

theorem allJson_posZero : ∀ vs : List JsValue, allJson (posZeroAll vs) = allJson vs
  | [] => rfl
  | v :: vs => by rw [posZeroAll, allJson, allJson, isJson_posZero v, allJson_posZero vs]

theorem fieldsJson_posZero : ∀ fs : List (JsString × JsValue),
    fieldsJson (posZeroFields fs) = fieldsJson fs
  | [] => rfl
  | (_, v) :: fs => by
    rw [posZeroFields, fieldsJson, fieldsJson, isJson_posZero v, fieldsJson_posZero fs]
end

namespace LiveValue

/-- The value that is read back for a value that is written. -/
def reload (v : LiveValue) : LiveValue :=
  match v.written with
  | .ok (some j) => ofJs j.posZero
  | _ => .undefined

theorem reload_eq {v : LiveValue} {j : JsValue} (h : v.written = .ok (some j)) :
    v.reload = ofJs j.posZero := by
  rw [reload, h]

theorem Storable.written {v : LiveValue} (h : v.Storable) : ∃ j, v.written = .ok (some j) := by
  obtain ⟨t, ht⟩ := h.signable
  obtain ⟨j, hj, _⟩ := Faithful.written v h.faithful ht
  exact ⟨j, hj⟩

theorem wellFormed_reload {v : LiveValue} (hwf : v.wellFormed = true) : v.reload.wellFormed = true := by
  rw [reload]
  split
  · rename_i j hj
    exact wellFormed_ofJs _ ((isJson_posZero j).trans (written_isJson v hwf hj))
  · rfl

/-- What is read back can be stored again. -/
theorem Storable.reload {v : LiveValue} (hwf : v.wellFormed = true) (h : v.Storable) :
    v.reload.Storable := by
  obtain ⟨j, hj⟩ := h.written
  rw [reload_eq hj]
  exact storable_ofJs _ ((isJson_posZero j).trans (written_isJson v hwf hj))

theorem ofJsFields_posZero (gs : Fields) :
    ofJsFields (posZeroFields gs) = gs.map fun g => (g.1, ofJs g.2.posZero) := by
  induction gs with
  | nil => rfl
  | cons g gs ih => rw [posZeroFields, ofJsFields, ih, List.map_cons]

theorem ofJsAll_posZero (vs : List JsValue) :
    ofJsAll (posZeroAll vs) = (vs.map fun v => ofJs v.posZero).map some := by
  induction vs with
  | nil => rfl
  | cons v vs ih => rw [posZeroAll, ofJsAll, ih, List.map_cons, List.map_cons]

theorem writtenMembers_reload {fs : LiveFields} {gs : Fields} (h : ∀ f ∈ fs, f.2.Storable)
    (hgs : writtenMembers fs = .ok gs) :
    gs.map (fun g => (g.1, ofJs g.2.posZero)) = fs.map fun f => (f.1, f.2.reload) := by
  induction fs generalizing gs with
  | nil =>
    cases hgs
    rfl
  | cons f fs ih =>
    obtain ⟨hf, hfs⟩ := List.forall_mem_cons.mp h
    obtain ⟨k, v⟩ := f
    obtain ⟨r, hs, hr, hhs, rfl⟩ := writtenMembers_cons_iff.mp hgs
    obtain ⟨j, hj⟩ := Storable.written hf
    rw [hj] at hr
    cases hr
    rw [List.map_cons, ← ih hfs hhs, reload_eq hj]
    rfl

theorem reload_obj {fs : LiveFields} (h : ∀ f ∈ fs, f.2.Storable) :
    (LiveValue.obj fs).reload = .obj (fs.map fun f => (f.1, f.2.reload)) := by
  obtain ⟨j, hj⟩ := (storable_obj.mpr h).written
  obtain ⟨gs, hgs, heq⟩ := written_obj_iff.mp hj
  obtain rfl := Option.some.inj heq
  rw [reload_eq hj, JsValue.posZero, ofJs, ofJsFields_posZero, writtenMembers_reload h hgs]

theorem writtenElems_reload {vs : List LiveValue} {js : List JsValue} (h : ∀ v ∈ vs, v.Storable)
    (hjs : writtenElems (vs.map some) = .ok js) :
    js.map (fun j => ofJs j.posZero) = vs.map reload := by
  induction vs generalizing js with
  | nil =>
    cases hjs
    rfl
  | cons v vs ih =>
    obtain ⟨hv, hvs⟩ := List.forall_mem_cons.mp h
    obtain ⟨r, ws, hr, hws, rfl⟩ := writtenElems_cons_iff.mp hjs
    obtain ⟨j, hj⟩ := Storable.written hv
    rw [hj] at hr
    cases hr
    rw [List.map_cons, List.map_cons, ih hvs hws, reload_eq hj]
    rfl

theorem reload_arr {vs : List LiveValue} (h : ∀ v ∈ vs, v.Storable) :
    (LiveValue.arr (vs.map some)).reload = .arr ((vs.map reload).map some) := by
  obtain ⟨j, hj⟩ := (storable_arr.mpr h).written
  obtain ⟨js, hjs, heq⟩ := written_arr_iff.mp hj
  obtain rfl := Option.some.inj heq
  rw [reload_eq hj, JsValue.posZero, ofJs, ofJsAll_posZero, writtenElems_reload h hjs]

end LiveValue

/-! ### What is read back is faithful -/

mutual
/-- A value without exotic objects and holes is faithful. -/
theorem faithful_ofJs : ∀ v : JsValue, (LiveValue.ofJs v).Faithful
  | .arr es => by
    rw [LiveValue.ofJs, LiveValue.Faithful, LiveValue.ofJsAll_eq, LiveValue.elemsFaithful_iff]
    exact faithful_ofJsAll es
  | .obj fs => by
    rw [LiveValue.ofJs, LiveValue.Faithful, LiveValue.ofJsFields_eq, LiveValue.membersFaithful_iff]
    exact faithful_ofJsFields fs
  | .undefined => trivial
  | .null => trivial
  | .bool _ => trivial
  | .num _ => trivial
  | .str _ => trivial
  | .bigint _ => trivial
  | .function => trivial
  | .symbol => trivial

theorem faithful_ofJsAll : ∀ vs : List JsValue, ∀ v ∈ vs.map LiveValue.ofJs, v.Faithful
  | [], _, hv => absurd hv List.not_mem_nil
  | w :: ws, v, hv => by
    rcases List.mem_cons.mp hv with heq | hv
    · rw [heq]
      exact faithful_ofJs w
    · exact faithful_ofJsAll ws v hv

theorem faithful_ofJsFields : ∀ fs : List (JsString × JsValue),
    ∀ f ∈ fs.map fun f => (f.1, LiveValue.ofJs f.2), f.2.Faithful
  | [], _, hf => absurd hf List.not_mem_nil
  | (_, w) :: gs, f, hf => by
    rcases List.mem_cons.mp hf with heq | hf
    · rw [heq]
      exact faithful_ofJs w
    · exact faithful_ofJsFields gs f hf
end

theorem LiveValue.faithful_reload (v : LiveValue) : v.reload.Faithful := by
  rw [reload]
  split
  · exact faithful_ofJs _
  · trivial

/-! ### Migration states -/

def reloadNumber : JsNumber → JsNumber
  | .fin d => .fin d.posZero
  | x => x

def reloadProper (v : ProperValue) : ProperValue :=
  ⟨v.val.reload, LiveValue.wellFormed_reload v.property⟩

def PhaseError.reloaded (e : PhaseError) : PhaseError :=
  ⟨reloadProper e.message, e.code.map reloadProper⟩

def MigrationPhase.reloaded (p : MigrationPhase) : MigrationPhase :=
  { p with output := p.output.map reloadProper, error := p.error.map PhaseError.reloaded }

/-- The state that is read back from the file of a state. -/
def MigrationState.reloaded (s : MigrationState) : MigrationState :=
  { s with
    approvalDelaySeconds := reloadNumber s.approvalDelaySeconds
    phases := s.phases.map MigrationPhase.reloaded }

theorem reload_num {x : JsNumber} (h : x.isFinite = true) :
    (LiveValue.num x).reload = .num (reloadNumber x) := by
  cases x with
  | fin d => rfl
  | _ => cases h

theorem map_optField (k : JsString) (v : Option LiveValue) :
    (optField k v).map (fun f => (f.1, f.2.reload)) = optField k (v.map LiveValue.reload) := by
  cases v <;> rfl

theorem PhaseError.live_reloaded {e : PhaseError} (h : e.Storable) :
    e.live.reload = e.reloaded.live := by
  rw [PhaseError.live, LiveValue.reload_obj, List.map_cons, map_optField, PhaseError.live,
    PhaseError.reloaded, Option.map_map, Option.map_map]
  · rfl
  · rw [← LiveValue.storable_obj]
    exact PhaseError.storable_live.mpr h

theorem MigrationPhase.live_reloaded {p : MigrationPhase} (h : p.Storable) :
    p.live.reload = p.reloaded.live := by
  have herror : (p.error.map PhaseError.live).map LiveValue.reload =
      p.reloaded.error.map PhaseError.live := by
    cases he : p.error with
    | none => rw [MigrationPhase.reloaded, he]; rfl
    | some e =>
      rw [MigrationPhase.reloaded, he]
      exact congrArg some (PhaseError.live_reloaded (h.2 e he))
  have htext (t : Option JsString) :
      (t.map LiveValue.str).map LiveValue.reload = t.map LiveValue.str := by
    cases t <;> rfl
  have houtput : (p.output.map Subtype.val).map LiveValue.reload =
      p.reloaded.output.map Subtype.val := by
    cases hp : p.output with
    | none => rw [MigrationPhase.reloaded, hp]; rfl
    | some v => rw [MigrationPhase.reloaded, hp]; rfl
  rw [MigrationPhase.live, LiveValue.reload_obj]
  · simp only [List.map_append, map_optField, herror, htext, houtput]
    rfl
  · rw [← LiveValue.storable_obj]
    exact MigrationPhase.storable_live.mpr h

/-- The reloaded state is the object that is read back. -/
theorem MigrationState.live_reloaded {s : MigrationState} (h : s.toMigration.Storable) :
    s.live.reload = s.reloaded.live := by
  have hphases : (LiveValue.arr ((s.phases.map MigrationPhase.live).map some)).reload =
      .arr ((s.reloaded.phases.map MigrationPhase.live).map some) := by
    have hmap : (s.phases.map MigrationPhase.live).map LiveValue.reload =
        s.reloaded.phases.map MigrationPhase.live := by
      rw [MigrationState.reloaded, List.map_map, List.map_map]
      exact List.map_congr_left fun p hp => MigrationPhase.live_reloaded (h.2 p hp)
    rw [LiveValue.reload_arr, hmap]
    rw [List.forall_mem_map]
    exact fun p hp => MigrationPhase.storable_live.mpr (h.2 p hp)
  have hindex : (LiveValue.num (.ofNat s.currentPhaseIndex)).reload =
      .num (.ofNat s.currentPhaseIndex) := by
    have hwritten : (LiveValue.num (.ofNat s.currentPhaseIndex)).written =
        .ok (some (.num (.ofNat s.currentPhaseIndex))) := rfl
    rw [LiveValue.reload_eq hwritten, posZero_ofNat]
    rfl
  rw [MigrationState.live, MigrationState.fields, LiveValue.reload_obj]
  · simp only [List.map_cons, List.map_nil, hphases, hindex, reload_num h.1]
    rfl
  · have hlive := MigrationState.storable_live.mpr h
    rw [MigrationState.live, LiveValue.storable_obj] at hlive
    exact hlive

/-- The parts of a phase that come from handlers are faithful. -/
def MigrationPhase.Faithful (p : MigrationPhase) : Prop :=
  (∀ output, p.output = some output → output.val.Faithful) ∧
    ∀ e, p.error = some e → e.message.val.Faithful ∧ ∀ code, e.code = some code → code.val.Faithful

theorem MigrationPhase.faithful_reloaded (p : MigrationPhase) : p.reloaded.Faithful := by
  constructor
  · intro output houtput
    obtain ⟨v, _, rfl⟩ := Option.map_eq_some_iff.mp houtput
    exact v.val.faithful_reload
  · intro e he
    obtain ⟨e', _, rfl⟩ := Option.map_eq_some_iff.mp he
    refine ⟨e'.message.val.faithful_reload, ?_⟩
    intro code hcode
    obtain ⟨v, _, rfl⟩ := Option.map_eq_some_iff.mp hcode
    exact v.val.faithful_reload

theorem faithful_str (s : JsString) : (LiveValue.str s).Faithful := trivial

theorem faithful_text (s : Option JsString) : ∀ w, s.map LiveValue.str = some w → w.Faithful := by
  intro w hw
  obtain ⟨t, _, rfl⟩ := Option.map_eq_some_iff.mp hw
  exact faithful_str t

theorem MigrationPhase.faithful_live {p : MigrationPhase} (h : p.Faithful) : p.live.Faithful := by
  have herror : ∀ w, p.error.map PhaseError.live = some w → w.Faithful := by
    intro w hw
    obtain ⟨e, he, rfl⟩ := Option.map_eq_some_iff.mp hw
    obtain ⟨hmessage, hcode⟩ := h.2 e he
    rw [PhaseError.live, LiveValue.Faithful, LiveValue.membersFaithful_iff, List.forall_mem_cons]
    exact ⟨hmessage, (forall_optValue (P := LiveValue.Faithful)).mpr hcode⟩
  rw [MigrationPhase.live, LiveValue.Faithful, LiveValue.membersFaithful_iff]
  simp only [List.forall_mem_append]
  refine ⟨⟨⟨⟨?_, ?_⟩, ?_⟩, ?_⟩, ?_⟩
  · intro f hf
    simp only [List.mem_cons, List.not_mem_nil, or_false] at hf
    rcases hf with rfl | rfl
    · exact faithful_str _
    · exact faithful_str _
  · exact (forall_optField (P := LiveValue.Faithful)).mpr (faithful_text _)
  · exact (forall_optField (P := LiveValue.Faithful)).mpr (faithful_text _)
  · exact (forall_optValue (P := LiveValue.Faithful)).mpr h.1
  · exact (forall_optField (P := LiveValue.Faithful)).mpr herror

/-- A state is faithful when its phases are. -/
theorem MigrationState.faithful_live {s : MigrationState} (h : ∀ p ∈ s.phases, p.Faithful) :
    s.live.Faithful := by
  have hphases : (LiveValue.arr ((s.phases.map MigrationPhase.live).map some)).Faithful := by
    rw [LiveValue.Faithful, LiveValue.elemsFaithful_iff, List.forall_mem_map]
    exact fun p hp => MigrationPhase.faithful_live (h p hp)
  rw [MigrationState.live, MigrationState.fields, LiveValue.Faithful, LiveValue.membersFaithful_iff]
  simp only [List.forall_mem_cons, faithful_str, hphases, List.not_mem_nil, false_implies,
    implies_true, and_true, true_and]
  exact ⟨trivial, trivial, trivial⟩

/-- What is loaded from the file of a state that can be stored is its reloaded state. -/
theorem loaded_live {host : HmacHost} {s : MigrationState} {id : JsString} {raw payload : JsValue}
    (h : saveMigrationState host s = .ok (some raw))
    (hload : loadMigrationState host id raw = .ok payload) (hs : s.toMigration.Storable) :
    LiveValue.ofJs payload = s.reloaded.live := by
  obtain ⟨signed, gs, _, _, hwritten, rfl⟩ := saved_eq h
  rw [(loadMigrationState_ok hload).2, property_payload, ← MigrationState.live_reloaded hs,
    LiveValue.reload_eq hwritten]
  rfl

theorem MigrationState.storable_reloaded {s : MigrationState} (h : s.toMigration.Storable) :
    s.reloaded.toMigration.Storable := by
  rw [← MigrationState.storable_live, ← MigrationState.live_reloaded h]
  exact LiveValue.Storable.reload s.wellFormed_live (MigrationState.storable_live.mpr h)

end Homelab
