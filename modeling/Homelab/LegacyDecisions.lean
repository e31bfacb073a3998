import Homelab.LegacyManifest

/-! When the entries of a v1-verifier manifest are still decided on as they were in version 1. -/
namespace Homelab
open Js Locked

/-- `verifyBackup`, of the entries that it has read -/
def verifyEntries (rt : BackupRuntime) (entries : List JsValue) (input : VerifyInput) :
    Except BackupError JsValue := do
  let candidates ← collectCandidates rt input.platform [] entries
  if candidates.any fun e => (property (js "taken_at") e).throwsOnCoerce then
    .error (.typeError coercionMessage)
  else
    match (sortByDate rt candidates).head? with
    | none => .error (.required input.target input.platform)
    | some freshest => checkFreshness rt input freshest

/-- The calls that have appended to the manifest, each with the clock and the secret of its moment, and what
the file holds after them. A call that has failed leaves it as it was. -/
def AppendsTo (text : JsString) (calls : List ((BackupRuntime × ManifestEntry) × Outcome Unit BackupError))
    (text' : JsString) : Prop :=
  OneByOne (PlanStep fun op => appendPlan op.1 op.2) (some text) calls (some text')

/-- Before and after any appends of signed entries, no entry of the manifest is taken for a tampered one, and
a platform that nothing has been appended for is decided on as in version 1. -/
structure LegacyUsable (rt : BackupRuntime) (text : JsString) (entries : List JsValue) : Prop where
  untampered : ∀ calls text' input, AppendsTo text calls text' →
    (∀ c ∈ calls, HmacVerifies rt c.1.2.value) →
      ∀ e ∈ entries, verifyBackup rt (.ok text') input ≠ .error (tampered e)
  decided : ∀ calls text' input, AppendsTo text calls text' →
    (∀ c ∈ calls, HmacVerifies rt c.1.2.value) →
      (∀ c ∈ calls, isFor input.platform c.1.2.value = false) →
        decisionOf input (verifyBackup rt (.ok text') input) =
          decisionOf input (legacyVerify rt entries input)

/-- The latest backup of each platform is over a day old just where it is over the limit of the platform. -/
def LimitsAgree (rt : BackupRuntime) (entries : List JsValue) : Prop :=
  ∀ p f, (sortByDate rt (candidatesFor p entries)).head? = some f →
    olderThan rt f fallbackMaxAgeSeconds = olderThan rt f (freshnessOf p)

variable {rt : BackupRuntime} {input : VerifyInput} {entries es appended : List JsValue} {e f : JsValue}
  {text : JsString} {platform : JsString}

/-! ### `verifyBackup` on entries -/

theorem verifyBackup_read {file : Except ErrnoException JsString} (h : readManifest rt file = .ok entries) :
    verifyBackup rt file input = verifyEntries rt entries input := by
  rw [verifyBackup, h]
  rfl

/-- The loop stops at an entry that does not verify, or all of them do. -/
theorem collectCandidates_stops (hobjects : ∀ e ∈ es, ∃ hmac, e.get? (js "hmac") = some hmac)
    (done : List JsValue) :
    (∀ e ∈ es, Passes rt e) ∨ ∃ e ∈ es, collectCandidates rt platform done es = .error (tampered e) := by
  induction es generalizing done with
  | nil => exact .inl fun e he => absurd he List.not_mem_nil
  | cons e rest ih =>
    obtain ⟨⟨hmac, hget⟩, hrest⟩ := List.forall_mem_cons.mp hobjects
    have hproperty : property (js "hmac") e = hmac := by
      rw [property, hget]
      rfl
    have hread : readProperty e (js "hmac") = .ok hmac := by
      rw [readProperty, hget]
    rw [collectCandidates, hread]
    change _ ∨ ∃ x ∈ e :: rest, (if (isEmptyText hmac || verifyEntryHmac rt e) = true then _ else _) = _
    by_cases hsigned : (isEmptyText hmac || verifyEntryHmac rt e) = true
    · have hpasses : Passes rt e := by
        refine ⟨⟨hmac, hget⟩, ?_⟩
        rwa [Bool.or_eq_true, isEmptyText_iff, verifyEntryHmac_iff, ← hproperty] at hsigned
      rw [if_pos hsigned]
      rcases ih hrest (if isFor platform e = true then done ++ [e] else done) with hall | ⟨x, hx, hstop⟩
      · exact .inl (List.forall_mem_cons.mpr ⟨hpasses, hall⟩)
      · exact .inr ⟨x, List.mem_cons_of_mem _ hx, hstop⟩
    · rw [if_neg hsigned]
      exact .inr ⟨e, List.mem_cons_self, rfl⟩

theorem verifyEntries_of_passes (hpasses : ∀ e ∈ es, Passes rt e)
    (hdated : ∀ e ∈ candidatesFor input.platform es, (property (js "taken_at") e).throwsOnCoerce = false) :
    verifyEntries rt es input = ((sortByDate rt (candidatesFor input.platform es)).head?.elim
      (.error (.required input.target input.platform)) fun f => checkAge rt input (maxAge input f) f) := by
  have hcollect : collectCandidates rt input.platform [] es = .ok (candidatesFor input.platform es) :=
    (collectCandidates_iff rt).mpr ⟨hpasses, (List.nil_append _).symm⟩
  have hany : ¬ ((candidatesFor input.platform es).any
      fun e => (property (js "taken_at") e).throwsOnCoerce) = true := by
    rw [List.any_eq_true]
    rintro ⟨e, he, hthrows⟩
    rw [hdated e he] at hthrows
    cases hthrows
  rw [verifyEntries, hcollect]
  change (if _ then _ else _) = _
  rw [if_neg hany]
  cases (sortByDate rt (candidatesFor input.platform es)).head? <;> rfl

/-- Where all entries verify, what is refused is no entry for its signature. -/
theorem verifyEntries_untampered (hpasses : ∀ e ∈ es, Passes rt e) (message : JsString) :
    verifyEntries rt es input ≠ .error (.error message) := by
  have hcollect : collectCandidates rt input.platform [] es = .ok (candidatesFor input.platform es) :=
    (collectCandidates_iff rt).mpr ⟨hpasses, (List.nil_append _).symm⟩
  rw [verifyEntries, hcollect]
  change (if _ then _ else _) ≠ _
  split_ifs
  · exact fun h => by cases h
  · cases (sortByDate rt (candidatesFor input.platform es)).head? with
    | none => exact fun h => by cases h
    | some f =>
      dsimp only
      rw [checkFreshness_eq, checkAge]
      split_ifs
      · exact fun h => by cases h
      · cases takenAt rt f with
        | none => exact fun h => by cases h
        | some taken =>
          dsimp only
          split_ifs
          · exact fun h => by cases h
          · exact fun h => by cases h

theorem legacyVerify_of_signed (h : ∀ e ∈ entries, HmacVerifies rt e) :
    legacyVerify rt entries input = ((sortByDate rt (candidatesFor input.platform entries)).head?.elim
      (.error (.required input.target input.platform)) fun f =>
        checkAge rt input (legacyMaxAge input) f) := by
  have hfind : (entries.find? fun e => !verifyEntryHmac rt e) = none := by
    rw [List.find?_eq_none]
    intro e he
    rw [(verifyEntryHmac_iff rt e).mpr (h e he)]
    exact Bool.false_ne_true
  rw [legacyVerify, hfind]
  dsimp only
  cases (sortByDate rt (candidatesFor input.platform entries)).head? <;> rfl

/-! ### Entries of both versions -/

theorem posZeroAll_eq_map (es : List JsValue) : posZeroAll es = es.map JsValue.posZero := by
  induction es with
  | nil => rfl
  | cons e es ih => rw [posZeroAll, ih, List.map_cons]

theorem mem_of_posZero {es' : List JsValue} (h : posZeroAll es = posZeroAll es') {x : JsValue} (hx : x ∈ es) :
    ∃ y ∈ es', x.posZero = y.posZero := by
  have hmem : x.posZero ∈ posZeroAll es := by
    rw [posZeroAll_eq_map]
    exact List.mem_map_of_mem hx
  rw [h, posZeroAll_eq_map] at hmem
  obtain ⟨y, hy, hsame⟩ := List.mem_map.mp hmem
  exact ⟨y, hy, hsame.symm⟩

theorem isFor_posZero (p : JsString) (x : JsValue) : isFor p x.posZero = isFor p x := by
  rw [Bool.eq_iff_iff, isFor_iff, isFor_iff, property_posZero, posZero_eq_str]

theorem first_map (horder : OrderByDates rt) {g : JsValue → JsValue}
    (hfor : ∀ e ∈ es, isFor platform (g e) = isFor platform e)
    (htaken : ∀ e ∈ candidatesFor platform es, takenAt rt (g e) = takenAt rt e) :
    (sortByDate rt (candidatesFor platform (es.map g))).head? =
      (sortByDate rt (candidatesFor platform es)).head?.map g := by
  rw [candidatesFor_map hfor, sortByDate_map horder htaken, List.head?_map]

/-- The entries of a platform that nothing was appended for are the converted ones. -/
theorem candidate_converted (h : posZeroAll es = posZeroAll (entries.map (promoteVerifier rt) ++ appended))
    (hothers : ∀ a ∈ appended, isFor platform a = false) {x : JsValue} (hx : x ∈ candidatesFor platform es) :
    ∃ e ∈ entries, Converted rt e x := by
  obtain ⟨hmem, hfor⟩ := List.mem_filter.mp hx
  obtain ⟨y, hy, hsame⟩ := mem_of_posZero h hmem
  rcases List.mem_append.mp hy with hy | hy
  · obtain ⟨e, he, rfl⟩ := List.mem_map.mp hy
    exact ⟨e, he, hsame⟩
  · rw [← isFor_posZero, hsame, isFor_posZero, hothers y hy] at hfor
    cases hfor

/-- The latest entry of such a platform is what has become of the latest entry of version 1. -/
theorem first_converted (horder : OrderByDates rt) (htyped : ∀ e ∈ entries, LegacyEntry e)
    (h : posZeroAll es = posZeroAll (entries.map (promoteVerifier rt) ++ appended))
    (hothers : ∀ a ∈ appended, isFor platform a = false) :
    (sortByDate rt (candidatesFor platform es)).head?.map JsValue.posZero =
      (sortByDate rt (candidatesFor platform entries)).head?.map fun e => (promoteVerifier rt e).posZero := by
  have hself (e : JsValue) : Converted rt e (promoteVerifier rt e).posZero := posZero_posZero _
  have hread : candidatesFor platform (posZeroAll es) =
      candidatesFor platform (entries.map fun e => (promoteVerifier rt e).posZero) := by
    have hnone : candidatesFor platform (posZeroAll appended) = [] := by
      rw [candidatesFor, List.filter_eq_nil_iff, posZeroAll_eq_map]
      intro x hx
      obtain ⟨a, ha, rfl⟩ := List.mem_map.mp hx
      rw [isFor_posZero, hothers a ha]
      exact Bool.false_ne_true
    rw [h, posZeroAll_append, candidatesFor, List.filter_append]
    change candidatesFor platform _ ++ candidatesFor platform _ = _
    rw [hnone, List.append_nil, posZeroAll_eq_map, List.map_map]
    rfl
  have htaken : ∀ x ∈ candidatesFor platform es, takenAt rt x.posZero = takenAt rt x := by
    intro x hx
    obtain ⟨e, he, hconverted⟩ := candidate_converted h hothers hx
    have hzero : Converted rt e x.posZero := (posZero_posZero x).trans hconverted
    rw [takenAt_converted hconverted (htyped e he), takenAt_converted hzero (htyped e he)]
  calc (sortByDate rt (candidatesFor platform es)).head?.map JsValue.posZero
      = (sortByDate rt (candidatesFor platform (es.map JsValue.posZero))).head? :=
        (first_map horder (fun x _ => isFor_posZero platform x) htaken).symm
    _ = (sortByDate rt
          (candidatesFor platform (entries.map fun e => (promoteVerifier rt e).posZero))).head? := by
        rw [← posZeroAll_eq_map, hread]
    _ = _ := by
        apply first_map horder
        · exact fun e he => isFor_converted (hself e) (htyped e he) platform
        · exact fun e he => takenAt_converted (hself e) (htyped e (List.mem_filter.mp he).1)

/-! ### The limits of both versions -/

theorem orElse_cases (v : JsValue) : (∀ w, v.orElse w = w) ∨ ∀ w, v.orElse w = v := by
  cases v with
  | undefined => exact .inl fun _ => rfl
  | null => exact .inl fun _ => rfl
  | _ => exact .inr fun _ => rfl

theorem freshnessOf_coerces (p : JsString) : (freshnessOf p).throwsOnCoerce = false := by
  rcases freshnessOf_cases p with ⟨n, hn⟩ | hf | hf
  · rw [hn]
    rfl
  · rw [hf]
    rfl
  · rw [hf]
    rfl

theorem olderThan_converted (h : Converted rt e f) (he : LegacyEntry e) (limit : JsValue) :
    olderThan rt f limit = olderThan rt e limit := by
  rw [olderThan, olderThan, takenAt_converted h he]

/-! ### What is signed in both versions -/

theorem getOwn_withoutHmac {k : JsString} (hk : k ≠ js "hmac") (fs : Fields) :
    getOwn k (withoutHmac (.obj fs)) = getOwn k fs := by
  change getOwn k (fs.filter fun f => f.1 != js "hmac") = _
  induction fs with
  | nil => rfl
  | cons f fs ih =>
    obtain ⟨k', v⟩ := f
    by_cases hhmac : k' = js "hmac"
    · rw [List.filter_cons_of_neg (by simp [hhmac]), ih, getOwn, if_neg (by rw [hhmac]; exact hk.symm)]
    · rw [List.filter_cons_of_pos (by simp [hhmac]), getOwn, getOwn, ih]

/-- Only an entry that has a version is signed for the text that it has in version 2. -/
theorem signedText_ne {fs : Fields} {t t' : JsString} (hkeys : (fs.map Prod.fst).Nodup)
    (hversion : getOwn (js "schema_version") fs = .undefined)
    (ht : canonicalJson (.obj (withoutHmac (promoteVerifier rt (.obj fs)))) = .ok t)
    (ht' : canonicalJson (.obj (withoutHmac (.obj fs))) = .ok t') : t ≠ t' := by
  rintro rfl
  have hcanon := encode_inj _ ht ht'
  have hpromoted : ((withoutHmac (promoteVerifier rt (.obj fs))).map Prod.fst).Nodup := by
    change [js "schema_version", js "platform", js "target_id", js "backup_type", js "taken_at",
      js "location",
      js "size_bytes", js "max_age_seconds", js "checksum", js "verified"].Nodup
    decide
  have hfields : ((withoutHmac (.obj fs)).map Prod.fst).Nodup := (hkeys.sublist (List.filter_sublist.map _))
  have hsame := canon_getOwn hpromoted hfields hcanon (js "schema_version")
  rw [getOwn_withoutHmac (by decide), hversion] at hsame
  change canon (.num (.ofNat 2)) = canon .undefined at hsame
  rw [canon_ofNat] at hsame
  cases hsame

theorem entryDigest_iff {fields : Fields} {digest : Bytes} : entryDigest rt fields = .ok digest ↔
    ∃ key t, getSecret rt = .ok key ∧ canonicalJson (.obj fields) = .ok t ∧ rt.hmacSha256 key t = digest := by
  rw [entryDigest]
  cases getSecret rt with
  | error message =>
    constructor
    · intro h
      cases h
    · rintro ⟨key, t, hkey, -⟩
      cases hkey
  | ok key =>
    cases canonicalJson (.obj fields) with
    | error message =>
      constructor
      · intro h
        cases h
      · rintro ⟨key, t, -, ht, -⟩
        cases ht
    | ok t =>
      constructor
      · intro h
        exact ⟨key, t, rfl, rfl, Except.ok.inj h⟩
      · rintro ⟨key, t, hkey, ht, hdigest⟩
        cases hkey
        cases ht
        exact congrArg Except.ok hdigest

/-- An entry of version 1 keeps its HMAC only by a collision of two texts under the secret. -/
theorem digestsAgree_collides {fs : Fields} (hkeys : (fs.map Prod.fst).Nodup)
    (hversion : getOwn (js "schema_version") fs = .undefined) (hsigned : HmacVerifies rt (.obj fs))
    (h : DigestsAgree rt (.obj fs)) :
    ∃ key t t', getSecret rt = .ok key ∧ t ≠ t' ∧ rt.hmacSha256 key t = rt.hmacSha256 key t' ∧
      canonicalJson (.obj (withoutHmac (.obj fs))) = .ok t' := by
  obtain ⟨hmac, digest, -, -, hdigest, -⟩ := hsigned
  obtain ⟨key, t', hkey, ht', hmac'⟩ := entryDigest_iff.mp hdigest
  obtain ⟨key', t, hkey', ht, hmac⟩ := entryDigest_iff.mp (h.trans hdigest)
  rw [hkey] at hkey'
  cases hkey'
  exact ⟨key, t, t', hkey, signedText_ne hkeys hversion ht ht', hmac.trans hmac'.symm, ht'⟩

/-! ### Manifests that stay usable -/

theorem LegacyEntry.tampered_error (h : LegacyEntry e) : ∃ message, tampered e = .error message := by
  obtain ⟨s, hs⟩ := h.platform
  rw [tampered, hs]
  exact ⟨_, rfl⟩

theorem LegacyEntry.dated {x : JsValue} (h : LegacyEntry e) (hx : Converted rt e x) :
    (property (js "taken_at") x).throwsOnCoerce = false := by
  obtain ⟨taken, htaken⟩ := h.takenAt
  have htext : property (js "taken_at") x = .str taken := by
    apply text_converted hx
    exact orElse_text htaken _
  rw [htext]
  rfl

/-- Where an entry of version 1 is refused for its signature, the manifest is of no use for any platform. -/
theorem promoted_passes (h : LegacyManifest rt text entries)
    (huntampered : ∀ e ∈ entries, verifyBackup rt (.ok text) input ≠ .error (tampered e)) :
    ∀ e ∈ entries, DigestsAgree rt e := by
  have hobjects : ∀ x ∈ entries.map (promoteVerifier rt), ∃ hmac, x.get? (js "hmac") = some hmac := by
    intro x hx
    obtain ⟨e, -, rfl⟩ := List.mem_map.mp hx
    exact ⟨_, rfl⟩
  rcases @collectCandidates_stops _ _ input.platform hobjects [] with hall | ⟨x, hx, hstop⟩
  · intro e he
    have hpasses := hall _ (List.mem_map_of_mem he)
    exact (passes_converted rfl (h.signed e he)).mp hpasses
  · obtain ⟨e, he, rfl⟩ := List.mem_map.mp hx
    refine absurd ?_ (huntampered e he)
    rw [verifyBackup_read (h.read rt), verifyEntries, hstop, tampered_converted rfl (h.typed e he)]
    rfl

/-- All that a manifest holds verifies, if the entries of version 1 do in version 2. -/
theorem rewritten_passes (h : LegacyManifest rt text entries) (hdigests : ∀ e ∈ entries, DigestsAgree rt e)
    (hes : posZeroAll es = posZeroAll (entries.map (promoteVerifier rt) ++ appended))
    (hsigned : ∀ a ∈ appended, HmacVerifies rt a) : ∀ x ∈ es, Passes rt x := by
  intro x hx
  obtain ⟨y, hy, hsame⟩ := mem_of_posZero hes hx
  rcases List.mem_append.mp hy with hy | hy
  · obtain ⟨e, he, rfl⟩ := List.mem_map.mp hy
    exact (passes_converted hsame (h.signed e he)).mpr (hdigests e he)
  · apply passes_of_verifies
    rw [← hmacVerifies_posZero, hsame, hmacVerifies_posZero]
    exact hsigned y hy

/-- The decision on the entries of a manifest, by the latest entry of version 1 -/
def decideBy (rt : BackupRuntime) (limit : JsValue) (first : Option JsValue) : BackupDecision :=
  match first with
  | none => .missing
  | some f => if limit.throwsOnCoerce then .failed else if olderThan rt f limit then .stale else .accepted

theorem decision_missing (actionId : JsString) :
    decisionOf input (.error (.required actionId input.platform)) = .missing := if_pos rfl

theorem legacy_decision (h : ∀ e ∈ entries, HmacVerifies rt e) :
    decisionOf input (legacyVerify rt entries input) =
      decideBy rt (legacyMaxAge input) (sortByDate rt (candidatesFor input.platform entries)).head? := by
  rw [legacyVerify_of_signed h]
  cases (sortByDate rt (candidatesFor input.platform entries)).head? with
  | none => exact decision_missing input.target
  | some f => exact decisionOf_checkAge

/-- In version 2, the limit of every entry of version 1 is a day. -/
theorem converted_decision (horder : OrderByDates rt) (htyped : ∀ e ∈ entries, LegacyEntry e)
    (hes : posZeroAll es = posZeroAll (entries.map (promoteVerifier rt) ++ appended))
    (hothers : ∀ a ∈ appended, isFor input.platform a = false) (hpasses : ∀ x ∈ es, Passes rt x) :
    decisionOf input (verifyEntries rt es input) =
      decideBy rt ((overrideFor input).orElse fallbackMaxAgeSeconds)
        (sortByDate rt (candidatesFor input.platform entries)).head? := by
  have hdated : ∀ x ∈ candidatesFor input.platform es,
      (property (js "taken_at") x).throwsOnCoerce = false := by
    intro x hx
    obtain ⟨e, he, hx⟩ := candidate_converted hes hothers hx
    exact (htyped e he).dated hx
  have hmap := first_converted horder htyped hes hothers
  rw [verifyEntries_of_passes hpasses hdated]
  cases hfirst : (sortByDate rt (candidatesFor input.platform entries)).head? with
  | none =>
    rw [hfirst] at hmap
    rw [Option.map_eq_none_iff.mp hmap]
    exact decision_missing input.target
  | some f =>
    rw [hfirst] at hmap
    obtain ⟨f', hf', hconverted⟩ := Option.map_eq_some_iff.mp hmap
    have hmem : f ∈ entries := (List.mem_filter.mp (head_sortByDate_mem rt hfirst)).1
    rw [hf', Option.elim_some, decisionOf_checkAge, maxAge_converted hconverted,
      olderThan_converted hconverted (htyped f hmem)]
    rfl

/-- The limits matter only where the caller gives no other. -/
theorem decideBy_limits (hlimits : LimitsAgree rt entries) :
    decideBy rt ((overrideFor input).orElse fallbackMaxAgeSeconds)
        (sortByDate rt (candidatesFor input.platform entries)).head? =
      decideBy rt (legacyMaxAge input) (sortByDate rt (candidatesFor input.platform entries)).head? := by
  rw [legacyMaxAge]
  rcases orElse_cases (overrideFor input) with hnone | hsome
  · have hcoerces := freshnessOf_coerces input.platform
    rw [hnone, hnone]
    cases hfirst : (sortByDate rt (candidatesFor input.platform entries)).head? with
    | none => rfl
    | some f =>
      rw [decideBy, decideBy, hlimits _ f hfirst, hcoerces]
      rfl
  · rw [hsome, hsome]

theorem limits_of_decideBy {p : JsString}
    (h : decideBy rt fallbackMaxAgeSeconds (some f) = decideBy rt (freshnessOf p) (some f)) :
    olderThan rt f fallbackMaxAgeSeconds = olderThan rt f (freshnessOf p) := by
  have hcoerces := freshnessOf_coerces p
  have hday : fallbackMaxAgeSeconds.throwsOnCoerce = false := rfl
  rw [decideBy, decideBy, hcoerces, hday] at h
  cases hold : olderThan rt f fallbackMaxAgeSeconds with
  | false =>
    cases hlimit : olderThan rt f (freshnessOf p) with
    | false => rfl
    | true =>
      rw [hold, hlimit] at h
      cases h
  | true =>
    cases hlimit : olderThan rt f (freshnessOf p) with
    | false =>
      rw [hold, hlimit] at h
      cases h
    | true => rfl

/-- A manifest of version 1 stays usable exactly where the HMACs of its entries hold for their fields of
version 2, and none of its latest entries is over a day old and yet fresh for its platform. -/
theorem legacy_usable_iff (horder : OrderByDates rt) (h : LegacyManifest rt text entries) :
    LegacyUsable rt text entries ↔ (∀ e ∈ entries, DigestsAgree rt e) ∧ LimitsAgree rt entries := by
  constructor
  · intro husable
    have hstart : AppendsTo text [] text := .nil
    have hdigests := @promoted_passes _ ⟨[], [], none⟩ _ _ h
      (husable.untampered [] text _ hstart fun c hc => absurd hc List.not_mem_nil)
    refine ⟨hdigests, ?_⟩
    intro p f hfirst
    have hes : posZeroAll (entries.map (promoteVerifier rt)) =
        posZeroAll (entries.map (promoteVerifier rt) ++ []) := by
      rw [List.append_nil]
    have hpasses := rewritten_passes h hdigests hes fun a ha => absurd ha List.not_mem_nil
    have hdecided := husable.decided [] text ⟨p, [], none⟩ hstart (fun c hc => absurd hc List.not_mem_nil)
      fun c hc => absurd hc List.not_mem_nil
    rw [verifyBackup_read (h.read rt), legacy_decision h.signed,
      converted_decision horder h.typed hes (fun a ha => absurd ha List.not_mem_nil) hpasses,
        hfirst] at hdecided
    exact limits_of_decideBy hdecided
  · rintro ⟨hdigests, hlimits⟩
    have hread {calls text'} (hcalls : AppendsTo text calls text')
      (hsigned : ∀ c ∈ calls, HmacVerifies rt c.1.2.value) :
        ∃ appended es, (∀ a ∈ appended, ∃ c ∈ calls, a = c.1.2.value) ∧
          readManifest rt (.ok text') = .ok es ∧ (∀ x ∈ es, Passes rt x) ∧
          posZeroAll es = posZeroAll (entries.map (promoteVerifier rt) ++ appended) := by
      obtain ⟨appended, hmem, hfile⟩ := rewritten_calls h hcalls
      obtain ⟨es, hread, hes⟩ := rewritten_read h hfile
      refine ⟨appended, es, hmem, hread, rewritten_passes h hdigests hes ?_, hes⟩
      intro a ha
      obtain ⟨c, hc, rfl⟩ := hmem a ha
      exact hsigned c hc
    constructor
    · intro calls text' input hcalls hsigned e he htampered
      obtain ⟨appended, es, -, hread, hpasses, -⟩ := hread hcalls hsigned
      obtain ⟨message, hmessage⟩ := (h.typed e he).tampered_error
      rw [verifyBackup_read hread, hmessage] at htampered
      exact verifyEntries_untampered hpasses message htampered
    · intro calls text' input hcalls hsigned hplatform
      obtain ⟨appended, es, hmem, hread, hpasses, hes⟩ := hread hcalls hsigned
      have hothers : ∀ a ∈ appended, isFor input.platform a = false := by
        intro a ha
        obtain ⟨c, hc, rfl⟩ := hmem a ha
        exact hplatform c hc
      rw [verifyBackup_read hread, converted_decision horder h.typed hes hothers hpasses,
        decideBy_limits hlimits,
        legacy_decision h.signed]

/-! ### A backup of a volume -/

def legacyFields : Fields :=
  [(js "backup_type", .str (js "docker-volume")), (js "location", .str (js "/b/vol.tar.gz")),
    (js "platform", .str (js "docker")), (js "size_bytes", .num (.ofNat 256)),
    (js "taken_at", .str (js "2026-01-01T00:00:00.000Z"))]

def legacyDigest : JsString := js "65a49f81c36cee566be2769bdd6290c7bf647e283fab73ada4c3c8d590ceef9e"

def legacyBackup : JsValue := .obj (legacyFields ++ [(js "hmac", .str legacyDigest)])

def legacyText : JsString := jsonText (.obj [(js "entries", .arr [legacyBackup])])

/-- The digest of `legacyFields` under the secret of `january`, and another one for any other text -/
def legacyRuntime : BackupRuntime :=
  { january with
    hmacSha256 _ text := if text = jsonText (.obj legacyFields) then bufferFromHex legacyDigest else [] }

theorem legacyFields_text : canonicalJson (.obj legacyFields) = .ok (jsonText (.obj legacyFields)) := by
  rw [canonicalJson, encode, sortKeys_encodeFields (by decide)]
  rfl

theorem legacyFields_digest (key : Bytes) :
    legacyRuntime.hmacSha256 key (jsonText (.obj legacyFields)) = bufferFromHex legacyDigest := by
  change (if jsonText (.obj legacyFields) = jsonText (.obj legacyFields) then
    bufferFromHex legacyDigest else []) = _
  rw [if_pos rfl]

theorem legacyBackup_signed : HmacVerifies legacyRuntime legacyBackup := by
  have hdigest : entryDigest legacyRuntime legacyFields = .ok (bufferFromHex legacyDigest) :=
    entryDigest_iff.mpr ⟨List.replicate 32 0x30, _, rfl, legacyFields_text, legacyFields_digest _⟩
  exact ⟨legacyDigest, _, rfl, List.cons_ne_nil _ _, hdigest, rfl⟩

theorem legacyText_manifest : LegacyManifest legacyRuntime legacyText [legacyBackup] := by
  have hparsed : jsonParse legacyText = some (.obj [(js "entries", .arr [legacyBackup])]) :=
    jsonParse_jsonText _ (by decide)
  refine ⟨⟨_, hparsed, rfl, rfl, rfl⟩, ?_, List.forall_mem_singleton.mpr legacyBackup_signed⟩
  exact List.forall_mem_singleton.mpr ⟨⟨_, rfl⟩, ⟨_, rfl⟩, ⟨_, rfl⟩, ⟨_, rfl⟩, ⟨_, rfl⟩⟩

theorem legacyRuntime_order : OrderByDates legacyRuntime := fun _ _ _ => rfl

/-- A manifest whose HMACs hold is refused as tampered with. -/
theorem legacy_backup_tampered : ¬ ∀ (rt : BackupRuntime) (text : JsString) (entries : List JsValue),
    OrderByDates rt → LegacyManifest rt text entries → LegacyUsable rt text entries := by
  intro h
  have husable := h _ _ _ legacyRuntime_order legacyText_manifest
  have huntampered := husable.untampered [] legacyText ⟨js "docker", js "vol", none⟩ .nil
    fun c hc => absurd hc List.not_mem_nil
  have hagree := promoted_passes legacyText_manifest huntampered legacyBackup (List.mem_singleton_self _)
  obtain ⟨key, t, t', hkey, hne, hcollides, ht'⟩ :=
    digestsAgree_collides (by decide) rfl legacyBackup_signed hagree
  have hsame : t' = jsonText (.obj legacyFields) := Except.ok.inj (ht'.symm.trans legacyFields_text)
  subst hsame
  rw [legacyFields_digest] at hcollides
  change (if t = jsonText (.obj legacyFields) then bufferFromHex legacyDigest else []) = _ at hcollides
  rw [if_neg hne] at hcollides
  cases hcollides

theorem legacy_usable_iff_docker : LegacyUsable legacyRuntime legacyText [legacyBackup] ↔
    (∀ e ∈ [legacyBackup], DigestsAgree legacyRuntime e) ∧ LimitsAgree legacyRuntime [legacyBackup] :=
  legacy_usable_iff legacyRuntime_order legacyText_manifest

end Homelab
