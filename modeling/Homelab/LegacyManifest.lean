import Homelab.ManifestStore

/-! Manifests of version 1: what the verifier of that version decides on them, and what `verifyBackup`
decides once their entries are read, or have been rewritten, in version 2. -/
namespace Homelab
open Js Locked

/-! ### Manifests of version 1 -/

/-- An entry of the v1-verifier shape -/
structure LegacyEntry (e : JsValue) : Prop where
  platform : ∃ s, property (js "platform") e = .str s
  backupType : ∃ s, property (js "backup_type") e = .str s
  takenAt : ∃ s, property (js "taken_at") e = .str s
  location : ∃ s, property (js "location") e = .str s
  sizeBytes : ∃ x, property (js "size_bytes") e = .num x

/-- The text of a v1-verifier manifest, whose entries carry HMACs of their own fields -/
structure LegacyManifest (rt : BackupRuntime) (text : JsString) (entries : List JsValue) : Prop where
  parsed : ∃ raw, jsonParse text = some raw ∧ isVersion2 raw = false ∧
    property (js "entries") raw = .arr entries ∧ elements (property (js "backups") raw) = []
  typed : ∀ e ∈ entries, LegacyEntry e
  signed : ∀ e ∈ entries, HmacVerifies rt e

/-- The age of the entry is over the limit; a comparison with `NaN` is false. -/
def olderThan (rt : BackupRuntime) (e limit : JsValue) : Bool :=
  match takenAt rt e with
  | none => false
  | some taken => limit.toNumber.lt (ageSeconds rt taken)

/-- The comparison of the age of an entry with a limit -/
def checkAge (rt : BackupRuntime) (input : VerifyInput) (limit freshest : JsValue) :
    Except BackupError JsValue :=
  if limit.throwsOnCoerce then .error (.typeError coercionMessage)
  else
    match takenAt rt freshest with
    | none => .ok freshest
    | some taken =>
      if limit.toNumber.lt (ageSeconds rt taken) then .error (staleError rt input limit.toNumber taken)
      else .ok freshest

/-- An entry of version 1 has no limit of its own. -/
def legacyMaxAge (input : VerifyInput) : JsValue := (overrideFor input).orElse (freshnessOf input.platform)

/-- The verifier of version 1: every entry must verify, and the latest of the platform must be fresh. -/
def legacyVerify (rt : BackupRuntime) (entries : List JsValue) (input : VerifyInput) :
    Except BackupError JsValue :=
  match entries.find? fun e => !verifyEntryHmac rt e with
  | some e => .error (tampered e)
  | none =>
    match (sortByDate rt (candidatesFor input.platform entries)).head? with
    | none => .error (.required input.target input.platform)
    | some freshest => checkAge rt input (legacyMaxAge input) freshest

/-! ### Decisions -/

inductive BackupDecision
  | accepted
  | missing
  | stale
  | failed

/-- What the caller is told. Only a backup that is missing is named by the platform alone. -/
def decisionOf (input : VerifyInput) : Except BackupError JsValue → BackupDecision
  | .ok _ => .accepted
  | .error (.required _ target) => if target = input.platform then .missing else .stale
  | .error _ => .failed

variable {rt : BackupRuntime} {input : VerifyInput} {entries : List JsValue} {e e' f limit : JsValue}
  {platform : JsString}

theorem decisionOf_checkAge : decisionOf input (checkAge rt input limit f) =
    if limit.throwsOnCoerce then .failed else if olderThan rt f limit then .stale else .accepted := by
  rw [checkAge, olderThan]
  by_cases hthrows : limit.throwsOnCoerce = true
  · rw [if_pos hthrows, if_pos hthrows]
    rfl
  · rw [if_neg hthrows, if_neg hthrows]
    cases takenAt rt f with
    | none => rfl
    | some taken =>
      dsimp only
      by_cases hold : limit.toNumber.lt (ageSeconds rt taken) = true
      · rw [if_pos hold, if_pos hold, staleError, decisionOf, if_neg]
        -- the message goes on after the platform
        intro hsame
        have hlength := congrArg List.length hsame
        simp only [List.length_append] at hlength
        have hstale : (js " (stale: ").length = 9 := rfl
        omega
      · rw [if_neg hold, if_neg hold]
        rfl

theorem checkFreshness_eq : checkFreshness rt input f = checkAge rt input (maxAge input f) f := rfl

/-! ### Sorting -/

/-- The order in which an inconsistent comparator leaves a list depends on its answers alone. -/
def OrderByDates (rt : BackupRuntime) : Prop :=
  ∀ (l : List JsValue) (g : JsValue → JsValue), (∀ e ∈ l, takenAt rt (g e) = takenAt rt e) →
    rt.anyOrder (l.map g) = (rt.anyOrder l).map g

theorem all_congr_mem {α : Type} {l : List α} {p q : α → Bool} (h : ∀ a ∈ l, p a = q a) :
    l.all p = l.all q := by
  rw [Bool.eq_iff_iff, List.all_eq_true, List.all_eq_true]
  apply forall₂_congr
  intro a ha
  rw [h a ha]

theorem laterFirst_congr {a b a' b' : JsValue} (ha : takenAt rt a' = takenAt rt a)
    (hb : takenAt rt b' = takenAt rt b) : laterFirst rt a' b' = laterFirst rt a b := by
  rw [laterFirst, laterFirst, ha, hb]

/-- Sorting sees nothing but the dates. -/
theorem sortByDate_map (horder : OrderByDates rt) {l : List JsValue} {g : JsValue → JsValue}
    (h : ∀ e ∈ l, takenAt rt (g e) = takenAt rt e) : sortByDate rt (l.map g) = (sortByDate rt l).map g := by
  have hconsistent : consistentDates rt (l.map g) = consistentDates rt l := by
    rw [consistentDates, consistentDates, List.all_map, List.all_map]
    congr 1
    · apply all_congr_mem
      exact fun e he => congrArg Option.isSome (h e he)
    · apply all_congr_mem
      intro a ha
      rw [Function.comp_apply, List.all_map]
      apply all_congr_mem
      exact fun b hb => laterFirst_congr (h a ha) (h b hb)
  rw [sortByDate, sortByDate, hconsistent]
  by_cases hdates : consistentDates rt l = true
  · rw [if_pos hdates, if_pos hdates]
    refine (List.map_mergeSort ?_).symm
    intro a ha b hb
    exact (laterFirst_congr (h a ha) (h b hb)).symm
  · rw [if_neg hdates, if_neg hdates]
    exact horder l g h

theorem candidatesFor_map {g : JsValue → JsValue}
    (h : ∀ e ∈ entries, isFor platform (g e) = isFor platform e) :
    candidatesFor platform (entries.map g) = (candidatesFor platform entries).map g := by
  rw [candidatesFor, candidatesFor, List.filter_map]
  congr 1
  exact List.filter_congr fun e he => h e he

/-! ### Entries in version 2 -/

/-- The entry is what reading gives for an entry of version 1, or what rewriting makes of that. -/
def Converted (rt : BackupRuntime) (e e' : JsValue) : Prop := e'.posZero = (promoteVerifier rt e).posZero

/-- The HMAC of the entry is, in version 2, what it was in version 1. -/
def DigestsAgree (rt : BackupRuntime) (e : JsValue) : Prop :=
  entryDigest rt (withoutHmac (promoteVerifier rt e)) = entryDigest rt (withoutHmac e)

theorem orElse_text {v : JsValue} {s : JsString} (h : v = .str s) (w : JsValue) : v.orElse w = .str s := by
  rw [h]
  rfl

/-- A conversion takes the time of a clock only where there is no date. -/
theorem promoteVerifier_runtime (h : LegacyEntry e) (rt' : BackupRuntime) :
    promoteVerifier rt' e = promoteVerifier rt e := by
  obtain ⟨taken, htaken⟩ := h.takenAt
  rw [promoteVerifier, promoteVerifier, htaken]
  rfl

theorem text_converted (h : Converted rt e e') {k s : JsString}
    (hproperty : property k (promoteVerifier rt e) = .str s) : property k e' = .str s := by
  have hzero := property_posZero k e'
  rw [h, property_posZero, hproperty] at hzero
  exact posZero_eq_str.mp hzero.symm

theorem platform_converted (h : Converted rt e e') {s : JsString} (hs : property (js "platform") e = .str s) :
    property (js "platform") e' = .str s := text_converted h hs

theorem takenAt_converted (h : Converted rt e e') (he : LegacyEntry e) : takenAt rt e' = takenAt rt e := by
  obtain ⟨taken, htaken⟩ := he.takenAt
  have htext : property (js "taken_at") e' = .str taken := by
    apply text_converted h
    exact orElse_text htaken _
  rw [takenAt, takenAt, htext, htaken]

theorem isFor_converted (h : Converted rt e e') (he : LegacyEntry e) (p : JsString) :
    isFor p e' = isFor p e := by
  obtain ⟨s, hs⟩ := he.platform
  rw [isFor, isFor, platform_converted h hs, hs]

theorem tampered_converted (h : Converted rt e e') (he : LegacyEntry e) : tampered e' = tampered e := by
  obtain ⟨s, hs⟩ := he.platform
  rw [tampered, tampered, platform_converted h hs, hs]

theorem fallback_of_posZero {v : JsValue} (h : v.posZero = fallbackMaxAgeSeconds) :
    v = fallbackMaxAgeSeconds := by
  cases v with
  | num x =>
    cases x with
    | fin d =>
      change JsValue.num (.fin d.posZero) = _ at h
      rw [Decimal.posZero] at h
      split_ifs at h with hzero
      · -- the limit is not zero
        have hdigits : (0 : ℕ) = (Decimal.ofNat 86400).digits :=
          congrArg Decimal.digits (JsNumber.fin.inj (JsValue.num.inj h))
        exact absurd hdigits (by decide)
      · exact h
    | _ => cases h
  | _ => cases h

/-- The limit of a converted entry is a day, whatever its platform. -/
theorem maxAge_converted (h : Converted rt e e') :
    maxAge input e' = (overrideFor input).orElse fallbackMaxAgeSeconds := by
  have hlimit : property (js "max_age_seconds") e' = fallbackMaxAgeSeconds := by
    have hzero := property_posZero (js "max_age_seconds") e'
    rw [h, property_posZero] at hzero
    apply fallback_of_posZero
    rw [← hzero]
    exact posZero_ofNat 86400
  rw [maxAge, hlimit]
  cases overrideFor input with
  | _ => rfl

theorem passes_of_verifies (h : HmacVerifies rt e) : Passes rt e := by
  refine ⟨?_, .inr h⟩
  obtain ⟨hmac, digest, hproperty, -⟩ := h
  cases hget : e.get? (js "hmac") with
  | some w => exact ⟨w, rfl⟩
  | none =>
    rw [property, hget] at hproperty
    cases hproperty

theorem passes_converted (h : Converted rt e e') (hsigned : HmacVerifies rt e) :
    Passes rt e' ↔ DigestsAgree rt e := by
  obtain ⟨hmac, digest, hproperty, hne, hdigest, hbytes⟩ := hsigned
  have hpromoted : property (js "hmac") (promoteVerifier rt e) = .str hmac := orElse_text hproperty _
  have hconverted : property (js "hmac") e' = .str hmac := text_converted h hpromoted
  have hverifies : HmacVerifies rt e' ↔ HmacVerifies rt (promoteVerifier rt e) := by
    rw [← hmacVerifies_posZero, h, hmacVerifies_posZero]
  constructor
  · intro hpasses
    rcases hpasses.signed with hempty | hsigned
    · rw [hconverted] at hempty
      exact absurd (JsValue.str.inj hempty) hne
    · obtain ⟨hmac', digest', hproperty', -, hdigest', hbytes'⟩ := hverifies.mp hsigned
      rw [hpromoted] at hproperty'
      cases hproperty'
      rw [DigestsAgree, hdigest', hdigest, ← hbytes', hbytes]
  · intro hagree
    apply passes_of_verifies
    exact hverifies.mpr ⟨hmac, digest, hpromoted, hne, hagree.trans hdigest, hbytes⟩

/-! ### Reading and rewriting -/

variable {text : JsString} {file file' : Option JsString} {appended : List JsValue}
  {calls : List ((BackupRuntime × ManifestEntry) × Outcome Unit BackupError)}

theorem readProperty_of_text {k s : JsString} (h : property k e = .str s) :
    readProperty e k = .ok (.str s) := by
  rw [property] at h
  rw [readProperty]
  cases hget : e.get? k with
  | none =>
    rw [hget] at h
    cases h
  | some v =>
    rw [hget] at h
    cases h
    rfl

theorem promoteAll_typed (h : ∀ e ∈ entries, LegacyEntry e) (rt' : BackupRuntime) :
    promoteAll (js "platform") (promoteVerifier rt') entries = .ok (entries.map (promoteVerifier rt)) := by
  induction entries with
  | nil => rfl
  | cons e entries ih =>
    obtain ⟨he, hentries⟩ := List.forall_mem_cons.mp h
    obtain ⟨s, hs⟩ := he.platform
    rw [promoteAll, readProperty_of_text hs, ih hentries, List.map_cons, promoteVerifier_runtime he]
    rfl

/-- Each entry of version 1 is read as one entry of version 2, by every reader. -/
theorem LegacyManifest.read (h : LegacyManifest rt text entries) (rt' : BackupRuntime) :
    readManifest rt' (.ok text) = .ok (entries.map (promoteVerifier rt)) := by
  obtain ⟨raw, hparsed, hversion, hentries, hbackups⟩ := h.parsed
  have hpromoted := @promoteAll_typed rt _ h.typed rt'
  rw [readManifest, hparsed]
  dsimp only
  rw [convertLegacyManifest, if_neg (Bool.eq_false_iff.mp hversion), hentries, hbackups, elements, hpromoted,
    promoteAll]
  exact congrArg Except.ok (List.append_nil _)

theorem LegacyManifest.readFile (h : LegacyManifest rt text entries) (rt' : BackupRuntime) :
    readManifestFile rt' (some text) = .ok (emptyManifest (entries.map (promoteVerifier rt))) := by
  obtain ⟨raw, hparsed, hversion, hentries, hbackups⟩ := h.parsed
  have hread := h.read rt'
  rw [readManifest, hparsed] at hread
  dsimp only at hread
  rw [readManifestFile, hparsed]
  cases raw with
  | obj fs =>
    dsimp only
    rw [if_neg (Bool.eq_false_iff.mp hversion), hread]
    rfl
  | _ => cases hentries

theorem isJson_emptyManifest (h : allJson entries = true) :
    (JsValue.obj (emptyManifest entries)).isJson = true := by
  have hkeys : OwnOrder [js "schema_version", js "entries"] := by decide
  simp only [emptyManifest, JsValue.isJson, List.map_cons, List.map_nil, hkeys, fieldsJson, h, decide_true,
    Bool.and_self, Bool.and_true]
  rfl

/-- The manifest is still the one of version 1, or it has been rewritten with what was appended. -/
def Rewritten (text : JsString) (converted appended : List JsValue) (file : Option JsString) : Prop :=
  (file = some text ∧ appended = []) ∨ HoldsEntries file (converted ++ appended)

theorem rewritten_append (h : LegacyManifest rt text entries)
    (hfile : Rewritten text (entries.map (promoteVerifier rt)) appended file) (rt' : BackupRuntime)
    (entry : ManifestEntry) : ∃ g, appendPlan rt' entry file = .writes g () ∧
      Rewritten text (entries.map (promoteVerifier rt)) (appended ++ [entry.value]) g := by
  rcases hfile with ⟨rfl, rfl⟩ | hholds
  · refine ⟨_, ?_, .inr (holdsEntries_push (isJson_emptyManifest (readManifest_isJson (h.read rt))) rfl)⟩
    rw [appendPlan, h.readFile rt']
  · obtain ⟨g, hplan, hg⟩ := @appendPlan_holds rt' _ entry _ hholds
    rw [List.append_assoc] at hg
    exact ⟨g, hplan, .inr hg⟩

/-- After any calls, of which some may have failed, the manifest holds what it held and what was appended. -/
theorem rewritten_calls (h : LegacyManifest rt text entries)
    (hcalls : OneByOne (PlanStep fun op : BackupRuntime × ManifestEntry => appendPlan op.1 op.2)
    (some text) calls
      file) : ∃ appended, (∀ a ∈ appended, ∃ c ∈ calls, a = c.1.2.value) ∧
        Rewritten text (entries.map (promoteVerifier rt)) appended file := by
  induction hcalls with
  | nil => exact ⟨[], fun a ha => absurd ha List.not_mem_nil, .inl ⟨rfl, rfl⟩⟩
  | @snoc calls file file' c hbefore hstep ih =>
    obtain ⟨appended, hmem, hfile⟩ := ih
    obtain ⟨g, hplan, hg⟩ := rewritten_append h hfile c.1.1 c.1.2
    have hold : ∀ a ∈ appended, ∃ c' ∈ calls ++ [c], a = c'.1.2.value := by
      intro a ha
      obtain ⟨c', hc', hvalue⟩ := hmem a ha
      exact ⟨c', List.mem_append_left _ hc', hvalue⟩
    rw [PlanStep, hplan] at hstep
    cases houtcome : c.2 with
    | returned r =>
      rw [houtcome] at hstep
      rcases hstep with ⟨hkeeps, -⟩ | hwrites
      · cases hkeeps
      · cases hwrites
        refine ⟨appended ++ [c.1.2.value], ?_, hg⟩
        rw [List.forall_mem_append]
        refine ⟨hold, fun a ha => ⟨c, List.mem_append_right _ (List.mem_singleton_self c), ?_⟩⟩
        exact List.mem_singleton.mp ha
    | refused e =>
      rw [houtcome] at hstep
      cases hstep.1
    | failed e =>
      rw [houtcome] at hstep
      change file' = file at hstep
      rw [hstep]
      exact ⟨appended, hold, hfile⟩

theorem rewritten_read (h : LegacyManifest rt text entries) {text' : JsString}
    (hfile : Rewritten text (entries.map (promoteVerifier rt)) appended (some text')) :
    ∃ es, readManifest rt (.ok text') = .ok es ∧
      posZeroAll es = posZeroAll (entries.map (promoteVerifier rt) ++ appended) := by
  rcases hfile with ⟨hsame, rfl⟩ | ⟨hnone, -⟩ | ⟨text'', fs, hsome, hparsed, hversion, hentries⟩
  · cases hsame
    rw [List.append_nil]
    exact ⟨_, h.read rt, rfl⟩
  · cases hnone
  · cases hsome
    refine ⟨_, ?_, hentries⟩
    rw [readManifest, hparsed]
    exact if_pos hversion

end Homelab
