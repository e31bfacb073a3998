import Homelab.BackupVerify
import Homelab.CanonicalInjective
import Homelab.JsonShape
import Homelab.NodePath

/-! The manifest file: the entry that `runBackup` records, appending it, and that the
next reader of the same file finds it behind the entries that were there. -/
namespace Homelab
open Js

/-! ### Entries are JSON values -/

theorem isJson_orElse {v w : JsValue} (hv : v = .undefined ∨ v.isJson = true) (hw : w.isJson = true) :
    (v.orElse w).isJson = true := by
  cases v with
  | undefined => exact hw
  | null => exact hw
  | _ => exact hv.resolve_left (fun h => by cases h)

theorem elements_isJson {v : JsValue} (h : v = .undefined ∨ v.isJson = true) :
    allJson (elements v) = true := by
  cases v with
  | arr es => exact h.resolve_left fun he => by cases he
  | _ => rfl

theorem isText_iff {v : JsValue} : isText v = true ↔ ∃ s, v = .str s := by
  cases v <;> simp [isText]

/-- An object with these keys, in this order, is a JSON value when its fields are. -/
theorem entry_isJson {fs : Fields} (hfs : fieldsJson fs = true)
    (hkeys : fs.map Prod.fst = [js "schema_version", js "platform", js "target_id", js "backup_type",
      js "taken_at", js "location", js "size_bytes", js "max_age_seconds", js "checksum",
      js "verified", js "hmac"]) : (JsValue.obj fs).isJson = true := by
  have horder : OwnOrder (fs.map Prod.fst) := hkeys ▸ by decide
  simp only [JsValue.isJson, horder, hfs, decide_true, Bool.and_self]

theorem promoteVerifier_isJson (rt : BackupRuntime) {e : JsValue} (he : e.isJson = true)
    (htext : isText (property (js "platform") e) = true) : (promoteVerifier rt e).isJson = true := by
  obtain ⟨platform, hplatform⟩ := isText_iff.mp htext
  have hprop (k : JsString) {w : JsValue} (hw : w.isJson = true) :
      ((property k e).orElse w).isJson = true := isJson_orElse (property_isJson he k) hw
  have hsize := property_isJson he (js "size_bytes")
  refine entry_isJson ?_ rfl
  simp only [fieldsJson, hplatform, hprop _ (show (JsValue.str platform).isJson = true from rfl),
    hprop _ (show (JsValue.str []).isJson = true from rfl),
    hprop _ (show (JsValue.str rt.isoNow).isJson = true from rfl), Bool.and_true]
  generalize property (js "size_bytes") e = size at hsize
  cases size with
  | num x =>
    have hfinite : x.isFinite = true := hsize.resolve_left fun h => by cases h
    cases x with
    | fin d => rfl
    | _ => exact absurd hfinite Bool.false_ne_true
  | _ => rfl

theorem promoteOverdue_isJson (rt : BackupRuntime) {b : JsValue} (hb : b.isJson = true)
    (htext : isText (property (js "id") b) = true) : (promoteOverdue rt b).isJson = true := by
  obtain ⟨id, hid⟩ := isText_iff.mp htext
  have hage := property_isJson hb (js "max_age_hours")
  refine entry_isJson ?_ rfl
  simp only [fieldsJson, hid, isJson_orElse (property_isJson hb (js "last_run"))
    (show (JsValue.str rt.isoNow).isJson = true from rfl), Bool.and_true]
  generalize property (js "max_age_hours") b = age at hage
  cases age with
  | num x =>
    have hfinite : x.isFinite = true := hage.resolve_left fun h => by cases h
    cases x with
    | fin d => rfl
    | _ => exact absurd hfinite Bool.false_ne_true
  | _ => rfl

theorem promoteAll_isJson {key : JsString} {promote : JsValue → JsValue}
    (hpromote : ∀ e, e.isJson = true → isText (property key e) = true → (promote e).isJson = true)
    {es ps : List JsValue} (hes : allJson es = true) (h : promoteAll key promote es = .ok ps) :
    allJson ps = true := by
  induction es generalizing ps with
  | nil =>
    cases h
    rfl
  | cons e es ih =>
    simp only [allJson, Bool.and_eq_true] at hes
    rw [promoteAll] at h
    unfold readProperty at h
    cases hname : e.get? key with
    | none =>
      rw [hname] at h
      cases h
    | some name =>
      rw [hname] at h
      cases hrest : promoteAll key promote es with
      | error message =>
        rw [hrest] at h
        cases h
      | ok promoted =>
        rw [hrest] at h
        cases h
        have hpromoted := ih hes.2 hrest
        have hprop : property key e = name := by rw [property, hname, Option.getD_some]
        split_ifs with htext
        · simp only [allJson, hpromote e hes.1 (hprop ▸ htext), hpromoted, Bool.and_self]
        · exact hpromoted

/-- What a manifest is read as. -/
theorem readManifest_isJson {rt : BackupRuntime} {file : Except ErrnoException JsString}
    {es : List JsValue} (h : readManifest rt file = .ok es) : allJson es = true := by
  unfold readManifest at h
  split at h
  · split_ifs at h
    cases h
    rfl
  · next raw =>
    split at h
    · cases h
    · next parsed hparsed =>
      have hjson := jsonParse_isJson hparsed
      have helems (k : JsString) := elements_isJson (property_isJson hjson k)
      unfold convertLegacyManifest at h
      split_ifs at h
      · cases h
        exact helems _
      · cases hv : promoteAll (js "platform") (promoteVerifier rt)
          (elements (property (js "entries") parsed)) with
        | error e =>
          rw [hv] at h
          cases h
        | ok verified =>
          cases ho : promoteAll (js "id") (promoteOverdue rt)
            (elements (property (js "backups") parsed)) with
          | error e =>
            rw [hv, ho] at h
            cases h
          | ok overdue =>
            rw [hv, ho] at h
            cases h
            have hverified := promoteAll_isJson (fun _ => promoteVerifier_isJson rt) (helems _) hv
            have hoverdue := promoteAll_isJson (fun _ => promoteOverdue_isJson rt) (helems _) ho
            rw [allJson_iff] at hverified hoverdue ⊢
            intro v hmem
            rcases List.mem_append.mp hmem with hmem | hmem
            · exact hverified v hmem
            · exact hoverdue v hmem

/-! ### What `runBackup` records -/

/-- The entry of a backup, but for what the engine fills in alike for all of them. -/
structure BackupRecord where
  platform : JsString
  targetId : JsString
  backupType : JsString
  takenAt : JsString
  location : JsString
  sizeBytes : ℕ
  checksum : JsString

/-- `DEFAULT_FRESHNESS[platform] ?? FALLBACK_MAX_AGE_SECONDS` -/
def freshnessOf (platform : JsString) : JsValue :=
  (lookupPlain defaultFreshness platform).orElse fallbackMaxAgeSeconds

def BackupRecord.unsigned (r : BackupRecord) : Fields :=
  [(js "schema_version", .num (.ofNat 2)), (js "platform", .str r.platform),
    (js "target_id", .str r.targetId), (js "backup_type", .str r.backupType),
    (js "taken_at", .str r.takenAt), (js "location", .str r.location),
    (js "size_bytes", .num (.ofNat r.sizeBytes)), (js "max_age_seconds", freshnessOf r.platform),
    (js "checksum", .str r.checksum), (js "verified", .bool false)]

/-- The entry is what signing the record gives. -/
def BackupRecord.Signed (rt : BackupRuntime) (r : BackupRecord) (entry : JsValue) : Prop :=
  ∃ fields, signManifestEntry rt r.unsigned = .ok fields ∧ entry = .obj fields

theorem getOwn_mem (k : JsString) (fs : Fields) :
    getOwn k fs = .undefined ∨ ∃ f ∈ fs, getOwn k fs = f.2 := by
  induction fs with
  | nil => exact Or.inl rfl
  | cons f fs ih =>
    obtain ⟨k', v⟩ := f
    rw [getOwn]
    split_ifs
    · exact Or.inr ⟨_, List.mem_cons_self .., rfl⟩
    · rcases ih with h | ⟨f, hf, h⟩
      · exact Or.inl h
      · exact Or.inr ⟨f, List.mem_cons_of_mem _ hf, h⟩

/-- A limit is a number of seconds or what the table inherits. -/
theorem freshnessOf_cases (platform : JsString) :
    (∃ n, freshnessOf platform = .num (.ofNat n)) ∨ freshnessOf platform = .function ∨
      freshnessOf platform = .obj [] := by
  have howned : ∀ f ∈ defaultFreshness, ∃ n, f.2 = .num (.ofNat n) := by
    simp only [defaultFreshness, List.forall_mem_cons]
    exact ⟨⟨_, rfl⟩, ⟨_, rfl⟩, ⟨_, rfl⟩, ⟨_, rfl⟩, ⟨_, rfl⟩, ⟨_, rfl⟩, ⟨_, rfl⟩,
      fun f hf => absurd hf List.not_mem_nil⟩
  rw [freshnessOf, lookupPlain]
  have hfound := getOwn_mem platform defaultFreshness
  rcases hfound with h | ⟨f, hf, h⟩
  · rw [h]
    change (∃ n, (inherited platform).orElse fallbackMaxAgeSeconds = _) ∨
      (inherited platform).orElse fallbackMaxAgeSeconds = _ ∨
      (inherited platform).orElse fallbackMaxAgeSeconds = _
    unfold inherited
    split_ifs
    · exact Or.inr (Or.inl rfl)
    · exact Or.inr (Or.inr rfl)
    · exact Or.inl ⟨86400, rfl⟩
  · obtain ⟨n, hn⟩ := howned f hf
    rw [h, hn]
    exact Or.inl ⟨n, rfl⟩

/-- What a plain field of an entry can be. -/
def KeptByJson (v : JsValue) : Prop := v.isJson = true ∧ v.posZero = v

theorem kept_str (s : JsString) : KeptByJson (.str s) := ⟨rfl, rfl⟩

theorem kept_num (n : ℕ) : KeptByJson (.num (.ofNat n)) := ⟨rfl, posZero_ofNat n⟩

theorem kept_freshnessOf {platform t : JsString} (h : encode (freshnessOf platform) = .ok t) :
    KeptByJson (freshnessOf platform) := by
  rcases freshnessOf_cases platform with ⟨n, hn⟩ | hf | hf
  · exact hn ▸ kept_num n
  · rw [hf] at h
    cases h
  · exact hf ▸ ⟨rfl, rfl⟩

theorem kept_fields {fs : Fields} (h : ∀ f ∈ fs, KeptByJson f.2) :
    fieldsJson fs = true ∧ posZeroFields fs = fs := by
  induction fs with
  | nil => exact ⟨rfl, rfl⟩
  | cons f fs ih =>
    obtain ⟨k, v⟩ := f
    obtain ⟨⟨hjson, hpos⟩, hfs⟩ := List.forall_mem_cons.mp h
    obtain ⟨hjsons, hposs⟩ := ih hfs
    constructor
    · rw [fieldsJson, hjson, hjsons, Bool.and_self]
    · rw [posZeroFields, hpos, hposs]

/-- What the limit of an encoded record is. -/
theorem BackupRecord.limit_of_text {r : BackupRecord} {text : JsString}
    (h : canonicalJson (.obj r.unsigned) = .ok text) : ∃ t, encode (freshnessOf r.platform) = .ok t := by
  obtain ⟨ms, hms, _⟩ := encode_obj_iff.mp h
  have hlimit : (js "max_age_seconds", encode (freshnessOf r.platform)) ∈
      ms.map fun m => (m.1, (.ok m.2 : Except JsString JsString)) := by
    rw [← hms]
    refine List.mem_map.mpr ⟨(js "max_age_seconds", freshnessOf r.platform), ?_, rfl⟩
    simp only [BackupRecord.unsigned, List.mem_cons, true_or, or_true]
  obtain ⟨m, _, hm⟩ := List.mem_map.mp hlimit
  exact ⟨m.2, (Prod.mk.inj hm).2.symm⟩

theorem BackupRecord.isJson_unsigned {r : BackupRecord} (h : KeptByJson (freshnessOf r.platform)) :
    (JsValue.obj r.unsigned).isJson = true := by
  have horder : OwnOrder (r.unsigned.map Prod.fst) := by
    change OwnOrder [js "schema_version", js "platform", js "target_id", js "backup_type",
      js "taken_at", js "location", js "size_bytes", js "max_age_seconds", js "checksum",
      js "verified"]
    decide
  have hfields : fieldsJson r.unsigned = true := by
    simp only [BackupRecord.unsigned, fieldsJson, h.1, Bool.and_true]
    rfl
  rw [JsValue.isJson, hfields, decide_eq_true horder]
  rfl

/-- A record can be signed when there is a secret and its limit is not a function. -/
theorem BackupRecord.signed_iff {rt : BackupRuntime} {r : BackupRecord} :
    (∃ entry, r.Signed rt entry) ↔ (∃ key, getSecret rt = .ok key) ∧
      ∃ t, encode (freshnessOf r.platform) = .ok t := by
  constructor
  · intro h
    obtain ⟨entry, fields, hsign, rfl⟩ := h
    rw [signManifestEntry, entryDigest] at hsign
    cases hkey : getSecret rt with
    | error e =>
      rw [hkey] at hsign
      cases hsign
    | ok key =>
      cases htext : canonicalJson (.obj r.unsigned) with
      | error e =>
        rw [hkey, htext] at hsign
        cases hsign
      | ok text => exact ⟨⟨key, rfl⟩, BackupRecord.limit_of_text htext⟩
  · intro h
    obtain ⟨⟨key, hkey⟩, t, ht⟩ := h
    have hjson := BackupRecord.isJson_unsigned (kept_freshnessOf ht)
    obtain ⟨text, htext⟩ := encode_of_isJson _ hjson
    have hdigest : entryDigest rt r.unsigned = .ok (rt.hmacSha256 key text) := by
      rw [entryDigest, hkey, canonicalJson, htext]
      rfl
    refine ⟨.obj (setOwn (js "hmac") (.str (hexText (rt.hmacSha256 key text))) r.unsigned), _, ?_, rfl⟩
    rw [signManifestEntry, hdigest]
    rfl

/-- Signing refuses what it cannot encode, so a signed entry is a JSON value. -/
theorem BackupRecord.Signed.kept {rt : BackupRuntime} {r : BackupRecord} {entry : JsValue}
    (h : r.Signed rt entry) : KeptByJson entry := by
  obtain ⟨t, ht⟩ := (BackupRecord.signed_iff.mp ⟨entry, h⟩).2
  obtain ⟨fields, hsign, rfl⟩ := h
  rw [signManifestEntry] at hsign
  cases hdigest : entryDigest rt r.unsigned with
  | error e =>
    rw [hdigest] at hsign
    cases hsign
  | ok digest =>
    rw [hdigest] at hsign
    cases hsign
    have hfresh := kept_freshnessOf ht
    have hfields : ∀ f ∈ setOwn (js "hmac") (.str (hexText digest)) r.unsigned, KeptByJson f.2 := by
      change ∀ f ∈ r.unsigned ++ [(js "hmac", JsValue.str (hexText digest))], KeptByJson f.2
      simp only [BackupRecord.unsigned, List.forall_mem_append, List.forall_mem_cons, kept_str,
        kept_num, hfresh, true_and]
      exact ⟨⟨⟨rfl, rfl⟩, fun f hf => absurd hf List.not_mem_nil⟩,
        fun f hf => absurd hf List.not_mem_nil⟩
    obtain ⟨hjson, hpos⟩ := kept_fields hfields
    exact ⟨entry_isJson hjson rfl, congrArg JsValue.obj hpos⟩

/-! ### Appending -/

/-- The files of the host, by where they lie. -/
abbrev Files := List JsString → Option JsString

/-- What stands in the way of a call on a manifest: making its directory, reading it, or
writing its new text and renaming that into place. -/
structure ManifestFaults where
  mkdir : Option ErrnoException
  read : Option ErrnoException
  write : Option ErrnoException

def noEntry : ErrnoException := ⟨some (js "ENOENT"), js "ENOENT: no such file or directory"⟩

/-- `fs.readFile` -/
def readFileAt (files : Files) (fault : Option ErrnoException) (at_ : List JsString) :
    Except ErrnoException JsString :=
  match fault with
  | some e => .error e
  | none =>
    match files at_ with
    | some text => .ok text
    | none => .error noEntry

/-- The text of a v2 manifest with these entries. -/
def manifestText (entries : List JsValue) : JsString :=
  jsonText (.obj [(js "schema_version", .num (.ofNat 2)), (js "entries", .arr entries)])

def raiseFault (fault : Option ErrnoException) : Except BackupError Unit :=
  match fault with
  | some e => .error (.node e)
  | none => .ok ()

/-- `appendManifestEntry` on the manifest that lies at `path`; when it throws the manifest
is as it was. -/
def appendManifestEntry (rt : BackupRuntime) (faults : ManifestFaults) (path : List JsString)
    (entry : JsValue) (files : Files) : Except BackupError Files := do
  raiseFault faults.mkdir
  let existing ← readManifest rt (readFileAt files faults.read path)
  raiseFault faults.write
  return Function.update files path (some (manifestText (existing ++ [entry])))

theorem raiseFault_ok {fault : Option ErrnoException} : raiseFault fault = .ok () ↔ fault = none := by
  cases fault with
  | none => exact ⟨fun _ => rfl, fun _ => rfl⟩
  | some e =>
    constructor
    · intro h
      cases h
    · intro h
      cases h

theorem posZeroAll_append (vs ws : List JsValue) :
    posZeroAll (vs ++ ws) = posZeroAll vs ++ posZeroAll ws := by
  induction vs with
  | nil => rfl
  | cons v vs ih => rw [List.cons_append, posZeroAll, posZeroAll, ih, List.cons_append]

/-- A manifest that was written is read as the entries it was written with. -/
theorem readManifest_manifestText (rt : BackupRuntime) {es : List JsValue} (h : allJson es = true) :
    readManifest rt (.ok (manifestText es)) = .ok (posZeroAll es) := by
  have hkeys : OwnOrder [js "schema_version", js "entries"] := by decide
  have hjson : (JsValue.obj [(js "schema_version", .num (.ofNat 2)), (js "entries", .arr es)]).isJson =
      true := by
    simp only [JsValue.isJson, List.map_cons, List.map_nil, hkeys, fieldsJson, h, decide_true,
      Bool.and_self, Bool.and_true]
    rfl
  rw [readManifest, manifestText, jsonParse_jsonText _ hjson]
  simp only [JsValue.posZero, posZeroFields]
  rfl

theorem appendManifestEntry_iff {rt : BackupRuntime} {faults : ManifestFaults} {path : List JsString}
    {entry : JsValue} {files files' : Files} :
    appendManifestEntry rt faults path entry files = .ok files' ↔
      faults.mkdir = none ∧ faults.write = none ∧
        ∃ existing, readManifest rt (readFileAt files faults.read path) = .ok existing ∧
          files' = Function.update files path (some (manifestText (existing ++ [entry]))) := by
  rw [← raiseFault_ok, ← raiseFault_ok, appendManifestEntry]
  cases raiseFault faults.mkdir with
  | error e =>
    constructor
    · intro h
      cases h
    · intro h
      cases h.1
  | ok u =>
    cases readManifest rt (readFileAt files faults.read path) with
    | error e =>
      constructor
      · intro h
        cases h
      · intro h
        obtain ⟨_, _, existing, hread, _⟩ := h
        cases hread
    | ok existing =>
      cases raiseFault faults.write with
      | error e =>
        constructor
        · intro h
          cases h
        · intro h
          cases h.2.1
      | ok u =>
        constructor
        · intro h
          exact ⟨rfl, rfl, existing, rfl, (Except.ok.inj h).symm⟩
        · intro h
          obtain ⟨_, _, existing, hread, rfl⟩ := h
          cases hread
          rfl

/-- After an append the manifest holds what it held, and then the new entry. -/
theorem readManifest_append {rt : BackupRuntime} {faults : ManifestFaults} {path : List JsString}
    {entry : JsValue} {files files' : Files} (hentry : KeptByJson entry)
    (h : appendManifestEntry rt faults path entry files = .ok files') :
    ∃ existing, readManifest rt (readFileAt files faults.read path) = .ok existing ∧
      readManifest rt (readFileAt files' none path) = .ok (posZeroAll existing ++ [entry]) := by
  obtain ⟨_, _, existing, hread, rfl⟩ := appendManifestEntry_iff.mp h
  have hjson : allJson (existing ++ [entry]) = true := by
    rw [allJson_iff, List.forall_mem_append]
    exact ⟨allJson_iff.mp (readManifest_isJson hread),
      fun v hv => List.mem_singleton.mp hv ▸ hentry.1⟩
  refine ⟨existing, hread, ?_⟩
  have hfile : readFileAt (Function.update files path (some (manifestText (existing ++ [entry])))) none
      path = .ok (manifestText (existing ++ [entry])) := by
    rw [readFileAt, Function.update_self]
  rw [hfile, readManifest_manifestText rt hjson, posZeroAll_append, posZeroAll, hentry.2]
  rfl

end Homelab
