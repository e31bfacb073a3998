import Homelab.AuditSound
import Homelab.BackupGate
import Homelab.JsRecord
import Homelab.LockedFile
import Homelab.ManifestFile

/-! The backup manifest under its mutex: any number of appends at a time, which share the name of
their temporary file. -/
namespace Homelab
open Js Locked

mutual
theorem posZero_posZero : ∀ v : JsValue, v.posZero.posZero = v.posZero
  | .num (.fin d) => by
    have hd : d.posZero.posZero = d.posZero := by
      by_cases hzero : d.digits = 0
      · rw [Decimal.posZero, Decimal.posZero, if_pos hzero]
        exact if_pos rfl
      · have hself : d.posZero = d := if_neg hzero
        rw [hself, hself]
    rw [JsValue.posZero, JsValue.posZero, hd]
  | .num .nan => rfl
  | .num (.inf _) => rfl
  | .arr es => by rw [JsValue.posZero, JsValue.posZero, posZeroAll_posZeroAll es]
  | .obj fs => by rw [JsValue.posZero, JsValue.posZero, posZeroFields_posZeroFields fs]
  | .undefined => rfl
  | .null => rfl
  | .bool _ => rfl
  | .str _ => rfl
  | .bigint _ => rfl
  | .function => rfl
  | .symbol => rfl

theorem posZeroAll_posZeroAll : ∀ vs : List JsValue, posZeroAll (posZeroAll vs) = posZeroAll vs
  | [] => rfl
  | v :: vs => by rw [posZeroAll, posZeroAll, posZero_posZero v, posZeroAll_posZeroAll vs]

theorem posZeroFields_posZeroFields : ∀ fs : Fields,
    posZeroFields (posZeroFields fs) = posZeroFields fs
  | [] => rfl
  | (k, v) :: fs => by
    rw [posZeroFields, posZeroFields, posZero_posZero v, posZeroFields_posZeroFields fs]
end

/-! ### Appending -/

/-- An entry of the manifest is a JSON value. -/
structure ManifestEntry where
  value : JsValue
  json : value.isJson = true

/-- What `runBackup` appends once the driver has returned. -/
def BackupRecord.Signed.entry {rt : BackupRuntime} {r : BackupRecord} {entry : JsValue}
    (h : r.Signed rt entry) : ManifestEntry := ⟨entry, h.kept.1⟩

def emptyManifest (entries : List JsValue) : Fields :=
  [(js "schema_version", .num (.ofNat 2)), (js "entries", .arr entries)]

/-- `readManifestFile`, of a file that can be read or is absent -/
def readManifestFile (rt : BackupRuntime) (file : Option JsString) : Except BackupError Fields :=
  match file with
  | none => .ok (emptyManifest [])
  | some raw =>
    match jsonParse raw with
    | none => .error (.syntaxError (rt.syntaxMessage raw))
    | some (.obj fs) =>
      if isVersion2 (.obj fs) then .ok fs
      else (convertLegacyManifest rt (.obj fs)).map emptyManifest
    | some parsed => (convertLegacyManifest rt parsed).map emptyManifest

/-- `existing.entries.push(entry)` -/
def pushEntry (entry : ManifestEntry) (existing : Fields) : Fields :=
  setOwn (js "entries") (.arr (elements (getOwn (js "entries") existing) ++ [entry.value])) existing

/-- `appendManifestEntry` under the mutex. -/
def appendPlan (rt : BackupRuntime) (entry : ManifestEntry) (file : Option JsString) :
    Plan (Option JsString) Unit BackupError :=
  match readManifestFile rt file with
  | .error e => .throws e
  | .ok existing => .writes (some (jsonText (.obj (pushEntry entry existing)))) ()

/-- A v2 manifest with these entries, or none without entries. JSON knows one zero. -/
def HoldsEntries (file : Option JsString) (entries : List JsValue) : Prop :=
  (file = none ∧ entries = []) ∨
    ∃ text fs, file = some text ∧ jsonParse text = some (.obj fs) ∧ isVersion2 (.obj fs) = true ∧
      posZeroAll (elements (getOwn (js "entries") fs)) = posZeroAll entries

variable {rt : BackupRuntime} {file file' : Option JsString} {entry : ManifestEntry}
  {entries : List JsValue}

theorem isVersion2_iff {fs : Fields} : isVersion2 (.obj fs) = true ↔
    getOwn (js "schema_version") fs = .num (.ofNat 2) ∧ ∃ es, getOwn (js "entries") fs = .arr es := by
  rw [isVersion2, property_obj, property_obj]
  constructor
  · intro h
    split at h
    · next version es hversion hentries =>
      rw [strictEq_ofNat_succ h] at hversion
      exact ⟨hversion, es, hentries⟩
    · cases h
  · rintro ⟨hversion, es, hentries⟩
    rw [hversion, hentries]
    exact JsNumber.strictEq_ofNat_self 2

/-- What has been appended to is read again, with the new entry behind the others. -/
theorem holdsEntries_push {fs : Fields} (hjson : (JsValue.obj fs).isJson = true)
    (hversion : isVersion2 (.obj fs) = true) :
    HoldsEntries (some (jsonText (.obj (pushEntry entry fs))))
      (elements (getOwn (js "entries") fs) ++ [entry.value]) := by
  obtain ⟨hnumber, es, hes⟩ := isVersion2_iff.mp hversion
  have hother : js "entries" ≠ js "schema_version" := by decide
  rw [JsValue.isJson, Bool.and_eq_true, decide_eq_true_eq] at hjson
  have hold : allJson (elements (getOwn (js "entries") fs)) = true := by
    apply elements_isJson
    have hproperty := property_isJson (v := .obj fs) ?_ (js "entries")
    · exact hproperty
    · rw [JsValue.isJson, hjson.2, decide_eq_true hjson.1]
      rfl
  have hall : allJson (elements (getOwn (js "entries") fs) ++ [entry.value]) = true := by
    rw [allJson_iff, List.forall_mem_append]
    refine ⟨allJson_iff.mp hold, ?_⟩
    intro v hv
    rw [List.mem_singleton.mp hv]
    exact entry.json
  have hpushed : (JsValue.obj (pushEntry entry fs)).isJson = true := by
    rw [JsValue.isJson, pushEntry, decide_eq_true (ownOrder_setOwn _ _ hjson.1),
      fieldsJson_setOwn _ (by rw [JsValue.isJson]; exact hall) hjson.2]
    rfl
  have hentries : getOwn (js "entries") (posZeroFields (pushEntry entry fs)) =
      .arr (posZeroAll (elements (getOwn (js "entries") fs) ++ [entry.value])) := by
    rw [getOwn_posZeroFields, pushEntry, getOwn_setOwn, JsValue.posZero]
  refine Or.inr ⟨_, posZeroFields (pushEntry entry fs), rfl, ?_, ?_, ?_⟩
  · rw [jsonParse_jsonText _ hpushed, JsValue.posZero]
  · refine isVersion2_iff.mpr ⟨?_, _, hentries⟩
    rw [getOwn_posZeroFields, pushEntry, getOwn_setOwn_ne hother, hnumber, posZero_ofNat]
  · rw [hentries]
    exact posZeroAll_posZeroAll _

theorem HoldsEntries.congr {entries' : List JsValue} (h : HoldsEntries file entries)
    (hsame : posZeroAll entries = posZeroAll entries') : HoldsEntries file entries' := by
  rcases h with ⟨rfl, rfl⟩ | ⟨text, fs, hfile, hparse, hversion, hentries⟩
  · cases entries' with
    | nil => exact Or.inl ⟨rfl, rfl⟩
    | cons e es => cases hsame
  · exact Or.inr ⟨text, fs, hfile, hparse, hversion, hentries.trans hsame⟩

/-- An append on a manifest puts the entry behind the others. -/
theorem appendPlan_holds (h : HoldsEntries file entries) :
    ∃ g, appendPlan rt entry file = .writes g () ∧ HoldsEntries g (entries ++ [entry.value]) := by
  rcases h with ⟨rfl, rfl⟩ | ⟨text, fs, rfl, hparse, hversion, hentries⟩
  · exact ⟨_, rfl, @holdsEntries_push _ (emptyManifest []) (by decide) (by decide)⟩
  · have hread : readManifestFile rt (some text) = .ok fs := by
      rw [readManifestFile, hparse]
      exact if_pos hversion
    refine ⟨some (jsonText (.obj (pushEntry entry fs))), ?_, ?_⟩
    · rw [appendPlan, hread]
    · apply (holdsEntries_push (jsonParse_isJson hparse) hversion).congr
      rw [posZeroAll_append, posZeroAll_append, hentries]

/-- A call on the entries. -/
def AppendStep (entries : List JsValue) (c : ManifestEntry × Outcome Unit BackupError)
    (entries' : List JsValue) : Prop :=
  entries' = entries ++ (returnedOps [c]).map ManifestEntry.value

theorem appendStep_of_planStep {c : ManifestEntry × Outcome Unit BackupError}
    (h : HoldsEntries file entries) (hstep : PlanStep (appendPlan rt) file c file') :
    ∃ entries', AppendStep entries c entries' ∧ HoldsEntries file' entries' := by
  obtain ⟨g, hplan, hg⟩ := @appendPlan_holds rt _ c.1 _ h
  refine ⟨_, rfl, ?_⟩
  rw [PlanStep, hplan] at hstep
  rw [returnedOps, List.filterMap_cons, returnedOp?]
  cases houtcome : c.2 with
  | returned r =>
    rw [houtcome] at hstep
    rcases hstep with ⟨hkeeps, _⟩ | hwrites
    · cases hkeeps
    · cases hwrites
      exact hg
  | refused e =>
    rw [houtcome] at hstep
    cases hstep.1
  | failed e =>
    rw [houtcome] at hstep
    dsimp only at hstep ⊢
    rw [hstep, List.filterMap_nil, List.map_nil, List.append_nil]
    exact h

theorem appendSteps {cs : List (ManifestEntry × Outcome Unit BackupError)} {entries' : List JsValue}
    (h : OneByOne AppendStep entries cs entries') :
    entries' = entries ++ (returnedOps cs).map ManifestEntry.value := by
  induction h with
  | nil => exact (List.append_nil _).symm
  | snoc _ hlast ih =>
    rw [AppendStep, ih] at hlast
    rw [hlast, returnedOps_append, List.map_append, List.append_assoc]

/-! ### Signatures -/

theorem withoutHmac_posZero (v : JsValue) : withoutHmac v.posZero = posZeroFields (withoutHmac v) := by
  have hfields (fs : Fields) : (posZeroFields fs).filter (fun f => f.1 != js "hmac") =
      posZeroFields (fs.filter fun f => f.1 != js "hmac") := by
    induction fs with
    | nil => rfl
    | cons f fs ih =>
      obtain ⟨k, w⟩ := f
      rw [posZeroFields, List.filter_cons, List.filter_cons, ih]
      split_ifs
      · rfl
      · rfl
  cases v with
  | obj fs => exact hfields fs
  | num x => cases x <;> rfl
  | _ => rfl

theorem property_posZero (k : JsString) (v : JsValue) :
    property k v.posZero = (property k v).posZero := by
  cases v with
  | obj fs => exact getOwn_posZeroFields k fs
  | num x => cases x <;> rfl
  | _ => rfl

theorem posZero_eq_str {v : JsValue} {s : JsString} : v.posZero = .str s ↔ v = .str s := by
  cases v with
  | num x => cases x <;> simp [JsValue.posZero]
  | _ => simp [JsValue.posZero]

/-- The signature of an entry does not see what writing and reading do to it. -/
theorem hmacVerifies_posZero {v : JsValue} : HmacVerifies rt v.posZero ↔ HmacVerifies rt v := by
  have hdigest : entryDigest rt (withoutHmac v.posZero) = entryDigest rt (withoutHmac v) := by
    have htext := encode_posZero (.obj (withoutHmac v))
    rw [JsValue.posZero] at htext
    rw [withoutHmac_posZero, entryDigest, canonicalJson, htext]
    rfl
  rw [HmacVerifies, HmacVerifies, hdigest, property_posZero]
  constructor
  · rintro ⟨hmac, digest, hproperty, hrest⟩
    exact ⟨hmac, digest, posZero_eq_str.mp hproperty, hrest⟩
  · rintro ⟨hmac, digest, hproperty, hrest⟩
    exact ⟨hmac, digest, posZero_eq_str.mpr hproperty, hrest⟩

/-- Without the `hmac` that signing sets, there is what was signed. -/
theorem withoutHmac_setOwn {u : Fields} (h : js "hmac" ∉ u.map Prod.fst) (v : JsValue) :
    withoutHmac (.obj (setOwn (js "hmac") v u)) = u := by
  change (setOwn (js "hmac") v u).filter (fun f => f.1 != js "hmac") = u
  have hself {fs : Fields} (hfs : js "hmac" ∉ fs.map Prod.fst) :
      fs.filter (fun f => f.1 != js "hmac") = fs := by
    rw [List.filter_eq_self]
    intro f hf
    rw [bne_iff_ne]
    rintro hk
    exact hfs (hk ▸ List.mem_map_of_mem hf)
  induction u with
  | nil => rfl
  | cons f fs ih =>
    obtain ⟨k, w⟩ := f
    rw [List.map_cons, List.mem_cons, not_or] at h
    rw [setOwn, if_neg (Ne.symm h.1)]
    split_ifs
    · rw [List.filter_cons_of_neg (by simp)]
      apply hself
      rw [List.map_cons, List.mem_cons, not_or]
      exact h
    · have hk : ((k, w).1 != js "hmac") = true := bne_iff_ne.mpr (Ne.symm h.1)
      rw [List.filter_cons, if_pos hk, ih h.2]

/-- What is signed verifies. -/
theorem hmacVerifies_signed {u fields : Fields} (hlength : ∀ key text, (rt.hmacSha256 key text).length = 32)
    (hu : js "hmac" ∉ u.map Prod.fst) (h : signManifestEntry rt u = .ok fields) :
    HmacVerifies rt (.obj fields) := by
  rw [signManifestEntry] at h
  cases hdigest : entryDigest rt u with
  | error message =>
    rw [hdigest] at h
    cases h
  | ok digest =>
    rw [hdigest] at h
    cases h
    have hbytes : digest.length = 32 := by
      rw [entryDigest] at hdigest
      cases hkey : getSecret rt with
      | error message =>
        rw [hkey] at hdigest
        cases hdigest
      | ok key =>
        cases htext : canonicalJson (.obj u) with
        | error message =>
          rw [hkey, htext] at hdigest
          cases hdigest
        | ok text =>
          rw [hkey, htext] at hdigest
          cases hdigest
          exact hlength key text
    refine ⟨hexText digest, digest, ?_, ?_, ?_, bufferFromHex_hexText digest⟩
    · rw [property_obj, getOwn_setOwn]
    · intro hempty
      have hread := bufferFromHex_hexText digest
      rw [hempty] at hread
      rw [← hread] at hbytes
      cases hbytes
    · rw [withoutHmac_setOwn hu, hdigest]

/-- As `digestTable`, with 32 bytes for any other text too. -/
def digestOf32 (key : Bytes) (text : JsString) : Bytes :=
  if text = jsonText (.obj backupOfA) then digestTable key text else List.replicate 32 0

def signing32 : BackupRuntime := { january with hmacSha256 := digestOf32 }

theorem digestOf32_length (key : Bytes) (text : JsString) : (digestOf32 key text).length = 32 := by
  rw [digestOf32]
  split_ifs with htext
  · rw [htext, digestTable_ofA]
    decide
  · exact List.length_replicate ..

def entryA : ManifestEntry := ⟨signedA, by decide⟩

def manifestA : JsString := jsonText (.obj (pushEntry entryA (emptyManifest [])))

theorem entryA_runs :
    (lockedFile (appendPlan signing32)).Runs ⟨none, none⟩
      (⟨some manifestA, none⟩, [⟨entryA, .settled (.returned ())⟩]) := by
  have hstart : (lockedFile (appendPlan signing32)).Runs ⟨none, none⟩ (⟨none, none⟩, []) := .refl
  exact Runs.writes_last hstart (fun _ hb => absurd hb List.not_mem_nil) rfl

end Homelab
