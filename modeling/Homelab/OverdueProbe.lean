import Homelab.Latest
import Homelab.LegacyManifest
import Homelab.ProbeScans

/-! The probe of the backup manifest, which reports what is overdue, beside the gate, which asks for the
newest entry. -/
namespace Homelab
open Js Latest

/-- What a run of the probe has beside the clocks: the random id of the observation that it makes of the
entry at a position, and the rounding of seconds to hours, to two decimals. -/
structure ProbeRuntime extends BackupRuntime where
  uuid : ℕ → JsString
  toHours : JsNumber → JsNumber

structure BackupOverdueProbe where
  platformId : JsString
  dataDir : JsString

/-! ### `scan` -/

def backupOverdue : JsString := js "backup_overdue"

def backupResource (targetId : JsString) : JsString := js "backup/" ++ targetId

/-- `e.max_age_seconds ?? 86_400` -/
def maxAgeSeconds (e : JsValue) : JsValue := (property (js "max_age_seconds") e).orElse (.num (.ofNat 86400))

section Scan

variable (rt : ProbeRuntime) (probe : BackupOverdueProbe)

/-- The sentinel for a manifest that cannot be read -/
def unreadableManifest (error : JsString) : Observation :=
  let resource := js "backup-manifest/" ++ probe.dataDir
  { id := rt.uuid 0
    platform := probe.platformId
    pattern := js "daemon_heartbeat_stale"
    resource
    severity := .p0
    discoveredAt := rt.isoNow
    details := some [(js "error", .str error), (js "probe", .str (js "backup-overdue")),
      (js "reason", .str (js "platform_unreachable"))]
    dedupKey := some (keyText probe.platformId (js "daemon_heartbeat_stale") resource) }

def overdueObservation (n : ℕ) (e : JsValue) (age limit : JsNumber) : Observation :=
  let resource := backupResource (textOf (js "target_id") e)
  { id := rt.uuid n
    platform := probe.platformId
    pattern := backupOverdue
    resource
    severity := .p1
    discoveredAt := rt.isoNow
    details := some [(js "last_run", property (js "taken_at") e), (js "max_age_hours", .num (rt.toHours limit)),
      (js "age_hours", .num (rt.toHours age))]
    dedupKey := some (keyText probe.platformId backupOverdue resource) }

/-- One turn of the loop over the entries -/
def scanEntry (n : ℕ) (e : JsValue) : Except BackupError (Option Observation) := do
  let date ← (readProperty e (js "taken_at")).mapError .typeError
  if date.throwsOnCoerce then .error (.typeError coercionMessage)
  else
    match takenAt rt.toBackupRuntime e with
    | none => .ok none
    | some taken =>
      let age := ageSeconds rt.toBackupRuntime taken
      let limit := maxAgeSeconds e
      if limit.throwsOnCoerce then .error (.typeError coercionMessage)
      else if limit.toNumber.lt age then
        if (property (js "target_id") e).throwsOnCoerce then .error (.typeError coercionMessage)
        else .ok (some (overdueObservation rt probe n e age limit.toNumber))
      else .ok none

/-- The loop, from the entry at a position on -/
def scanEntries : ℕ → List JsValue → Except BackupError (List Observation)
  | _, [] => .ok []
  | n, e :: entries => do
    let found ← scanEntry rt probe n e
    let rest ← scanEntries (n+1) entries
    return found.toList ++ rest

/-- `scan`, given what reading the manifest answers -/
def BackupOverdueProbe.scan : Except ErrnoException JsString → Except BackupError (List Observation)
  | .error e => .ok [unreadableManifest rt probe (js "Error: " ++ e.message)]
  | .ok raw =>
    match jsonParse raw with
    | none => .ok [unreadableManifest rt probe (js "SyntaxError: " ++ rt.syntaxMessage raw)]
    | some parsed => do
      let entries ← convertLegacyManifest rt.toBackupRuntime parsed
      scanEntries rt probe 0 entries

end Scan

/-! ### Manifests of the second version -/

/-- A platform and one of its targets -/
abbrev Target := JsString × JsString

def targetOf (e : JsValue) : Target := (textOf (js "platform") e, textOf (js "target_id") e)

/-- What `BackupManifestEntry` says of an entry, and that its date is valid. -/
structure DatedEntry (rt : BackupRuntime) (e : JsValue) : Prop where
  platform : ∃ s, property (js "platform") e = .str s
  targetId : ∃ s, property (js "target_id") e = .str s
  date : ∃ s, property (js "taken_at") e = .str s
  maxAge : ∃ x, property (js "max_age_seconds") e = .num x
  dated : (takenAt rt e).isSome

/-- The text of a manifest of the second version, with valid dates. -/
structure DatedManifest (rt : BackupRuntime) (text : JsString) (entries : List JsValue) : Prop where
  parsed : ∃ raw, jsonParse text = some raw ∧ isVersion2 raw = true ∧
    property (js "entries") raw = .arr entries
  dated : ∀ e ∈ entries, DatedEntry rt e

/-- The time of an entry, of which the date is valid -/
def dateOf (rt : BackupRuntime) (e : JsValue) : ℤ := (takenAt rt e).getD 0

/-- The entry is older than its limit. -/
def overdue (rt : BackupRuntime) (e : JsValue) : Bool :=
  (takenAt rt e).any fun taken => (maxAgeSeconds e).toNumber.lt (ageSeconds rt taken)

/-- The newest entry of a target, as the gate sorts entries -/
def newestOf (rt : BackupRuntime) (t : Target) (entries : List JsValue) : Option JsValue :=
  (sortByDate rt (members targetOf t entries)).head?

/-- What the gate is asked about a target, without overrides -/
def targetInput (t : Target) : VerifyInput := ⟨t.1, t.2, none⟩

/-- The resources that are reported as overdue -/
def reportedResources (obs : List Observation) : List JsString :=
  (obs.filter fun o => o.pattern = backupOverdue).map Observation.resource

/-- One observation is there for each target of which the gate finds the newest entry stale, and no other. -/
def ReportsStale (rt : BackupRuntime) (entries : List JsValue) (obs : List Observation) : Prop :=
  ∃ targets : List Target, targets.Nodup ∧
    (∀ t, t ∈ targets ↔ ∃ f, newestOf rt t entries = some f ∧ Stale rt (targetInput t) f) ∧
    (reportedResources obs).Perm (targets.map fun t => backupResource t.2)

/-- Of two entries of one target, the older is not overdue; the later in the file is the older one when both
are from one time. -/
abbrev SupersededAreFresh (rt : BackupRuntime) (entries : List JsValue) : Prop :=
  OutdatedInGroups (dateOf rt) targetOf (overdue rt) entries

section Agreement

variable {rt : ProbeRuntime} {probe : BackupOverdueProbe} {text : JsString} {entries : List JsValue}
  {e : JsValue}

theorem DatedManifest.read (h : DatedManifest rt.toBackupRuntime text entries) :
    readManifest rt.toBackupRuntime (.ok text) = .ok entries := by
  obtain ⟨raw, hparse, hversion, hentries⟩ := h.parsed
  have hread : readManifest rt.toBackupRuntime (.ok text) =
      convertLegacyManifest rt.toBackupRuntime raw := by rw [readManifest, hparse]
  rw [hread, convertLegacyManifest, if_pos hversion, hentries]
  rfl

theorem maxAgeSeconds_of_num {x : JsNumber} (h : property (js "max_age_seconds") e = .num x) :
    maxAgeSeconds e = .num x := by
  rw [maxAgeSeconds, h]
  rfl

/-- The probe and the gate apply one limit. -/
theorem overdue_iff {rt : BackupRuntime} (h : DatedEntry rt e) (t : Target) :
    overdue rt e = true ↔ Stale rt (targetInput t) e := by
  obtain ⟨x, hx⟩ := h.maxAge
  have hlimit : maxAge (targetInput t) e = .num x := by
    rw [maxAge, hx]
    rfl
  rw [overdue, Stale, Option.any_eq_true, maxAgeSeconds_of_num hx, hlimit]

variable (probe) in
/-- What the loop makes of an entry with a valid date -/
theorem scanEntry_of_dated (h : DatedEntry rt.toBackupRuntime e) (n : ℕ) : ∃ age limit,
    scanEntry rt probe n e = .ok (if overdue rt.toBackupRuntime e = true then
      some (overdueObservation rt probe n e age limit) else none) := by
  obtain ⟨target, htarget⟩ := h.targetId
  obtain ⟨date, hdate⟩ := h.date
  obtain ⟨x, hx⟩ := h.maxAge
  obtain ⟨taken, htaken⟩ := Option.isSome_iff_exists.mp h.dated
  have hoverdue : overdue rt.toBackupRuntime e = x.lt (ageSeconds rt.toBackupRuntime taken) := by
    rw [overdue, htaken, Option.any_some, maxAgeSeconds_of_num hx]
    rfl
  refine ⟨ageSeconds rt.toBackupRuntime taken, x, ?_⟩
  rw [scanEntry, readProperty_of_text hdate, htaken, maxAgeSeconds_of_num hx, htarget, hoverdue]
  -- texts and numbers are coerced without an error, so that the comparison alone is left
  change (if x.lt (ageSeconds rt.toBackupRuntime taken) = true then
    Except.ok (some (overdueObservation rt probe n e (ageSeconds rt.toBackupRuntime taken) x)) else .ok none) = _
  split_ifs <;> rfl

variable (probe) in
theorem scanEntries_of_dated (h : ∀ e ∈ entries, DatedEntry rt.toBackupRuntime e) (n : ℕ) :
    ∃ obs, scanEntries rt probe n entries = .ok obs ∧ (∀ o ∈ obs, o.pattern = backupOverdue) ∧
      obs.map Observation.resource =
        (entries.filter (overdue rt.toBackupRuntime)).map fun e => backupResource (targetOf e).2 := by
  induction entries generalizing n with
  | nil => exact ⟨[], rfl, by simp, rfl⟩
  | cons e entries ih =>
    obtain ⟨hhead, htail⟩ := List.forall_mem_cons.mp h
    obtain ⟨age, limit, hentry⟩ := scanEntry_of_dated probe hhead n
    obtain ⟨obs, hobs, hpattern, hresource⟩ := ih htail (n+1)
    rw [scanEntries, hentry, hobs, List.filter_cons]
    split_ifs
    · refine ⟨overdueObservation rt probe n e age limit :: obs, rfl, ?_, ?_⟩
      · exact List.forall_mem_cons.mpr ⟨rfl, hpattern⟩
      · rw [List.map_cons, List.map_cons, hresource]
        rfl
    · exact ⟨obs, rfl, hpattern, hresource⟩

variable (probe) in
theorem scan_of_dated (h : DatedManifest rt.toBackupRuntime text entries) :
    ∃ obs, probe.scan rt (.ok text) = .ok obs ∧ reportedResources obs =
      (entries.filter (overdue rt.toBackupRuntime)).map fun e => backupResource (targetOf e).2 := by
  obtain ⟨raw, hparse, hversion, hentries⟩ := h.parsed
  obtain ⟨obs, hobs, hpattern, hresources⟩ := scanEntries_of_dated probe h.dated 0
  refine ⟨obs, ?_, ?_⟩
  · rw [BackupOverdueProbe.scan, hparse]
    dsimp only
    rw [convertLegacyManifest, if_pos hversion, hentries]
    exact hobs
  · have hall : (obs.filter fun o => o.pattern = backupOverdue) = obs :=
      List.filter_eq_self.mpr fun o ho => decide_eq_true (hpattern o ho)
    rw [reportedResources, hall, hresources]

/-! ### The newest entry of each target -/

/-- On valid dates the gate's order puts the first of the latest entries first. -/
theorem newestOf_eq {rt : BackupRuntime} (h : ∀ e ∈ entries, DatedEntry rt e) (t : Target) :
    newestOf rt t entries = latest (dateOf rt) (members targetOf t entries) := by
  have hdated : ∀ e ∈ members targetOf t entries, (takenAt rt e).isSome = true :=
    fun e he => (h e (mem_members.mp he).1).dated
  have hconsistent : consistentDates rt (members targetOf t entries) = true := by
    rw [consistentDates, Bool.or_eq_true, List.all_eq_true]
    exact .inl hdated
  have horder : ∀ a ∈ members targetOf t entries, ∀ b ∈ members targetOf t entries,
      laterFirst rt a b = decide (dateOf rt b ≤ dateOf rt a) := by
    intro a ha b hb
    obtain ⟨s, hs⟩ := Option.isSome_iff_exists.mp (hdated a ha)
    obtain ⟨u, hu⟩ := Option.isSome_iff_exists.mp (hdated b hb)
    rw [laterFirst, dateOf, dateOf, hs, hu]
    rfl
  have hsort : ((members targetOf t entries).mergeSort (laterFirst rt)).map id =
      ((members targetOf t entries).map id).mergeSort fun a b => decide (dateOf rt b ≤ dateOf rt a) :=
    List.map_mergeSort horder
  rw [List.map_id, List.map_id] at hsort
  rw [newestOf, sortByDate, if_pos hconsistent, hsort]
  exact head_mergeSort _

/-- The targets that the gate finds stale are those of the newest entries that are overdue. -/
theorem mem_staleTargets {rt : BackupRuntime} (h : ∀ e ∈ entries, DatedEntry rt e) (t : Target) :
    t ∈ ((latestOfEach (dateOf rt) targetOf entries).filter (overdue rt)).map targetOf ↔
      ∃ f, newestOf rt t entries = some f ∧ Stale rt (targetInput t) f := by
  rw [newestOf_eq h, List.mem_map]
  constructor
  · rintro ⟨f, hf, rfl⟩
    obtain ⟨hlatest, hoverdue⟩ := List.mem_filter.mp hf
    rw [mem_latestOfEach] at hlatest
    have hmem := (mem_members.mp (latest_mem hlatest)).1
    exact ⟨f, hlatest, (overdue_iff (h f hmem) _).mp hoverdue⟩
  · rintro ⟨f, hlatest, hstale⟩
    obtain ⟨hmem, rfl⟩ := mem_members.mp (latest_mem hlatest)
    refine ⟨f, List.mem_filter.mpr ⟨mem_latestOfEach.mpr hlatest, ?_⟩, rfl⟩
    exact (overdue_iff (h f hmem) _).mpr hstale

theorem staleTargets_nodup (rt : BackupRuntime) (entries : List JsValue) :
    (((latestOfEach (dateOf rt) targetOf entries).filter (overdue rt)).map targetOf).Nodup :=
  List.pairwise_map.mpr ((latestOfEach_pairwise (dateOf rt) targetOf entries).filter _)

/-- What is reported of all overdue entries is what the gate would report exactly when no superseded entry
is overdue. -/
theorem reportsStale_iff {rt : BackupRuntime} (h : ∀ e ∈ entries, DatedEntry rt e) {obs : List Observation}
    (hobs : reportedResources obs =
      (entries.filter (overdue rt)).map fun e => backupResource (targetOf e).2) :
    ReportsStale rt entries obs ↔ SupersededAreFresh rt entries := by
  rw [SupersededAreFresh, ← perm_map_iff (fun e => backupResource (targetOf e).2), ← hobs]
  constructor
  · rintro ⟨targets, hnodup, hmem, hperm⟩
    have htargets : targets.Perm
        (((latestOfEach (dateOf rt) targetOf entries).filter (overdue rt)).map targetOf) := by
      rw [List.perm_ext_iff_of_nodup hnodup (staleTargets_nodup rt entries)]
      exact fun t => (hmem t).trans (mem_staleTargets h t).symm
    have hmap := htargets.map fun t => backupResource t.2
    rw [List.map_map] at hmap
    exact hperm.trans hmap
  · intro hperm
    refine ⟨_, staleTargets_nodup rt entries, mem_staleTargets h, ?_⟩
    rw [List.map_map]
    exact hperm

/-- The probe reports of a dated manifest, once for each, the targets of which the gate finds the newest
entry stale, exactly when no older entry of a target is overdue; and both read the same entries. -/
theorem overdue_agrees_iff (rt : ProbeRuntime) (probe : BackupOverdueProbe) (text : JsString)
    (entries : List JsValue) (h : DatedManifest rt.toBackupRuntime text entries) :
    readManifest rt.toBackupRuntime (.ok text) = .ok entries ∧
      ∃ obs, probe.scan rt (.ok text) = .ok obs ∧
        (ReportsStale rt.toBackupRuntime entries obs ↔ SupersededAreFresh rt.toBackupRuntime entries) := by
  obtain ⟨obs, hscan, hobs⟩ := scan_of_dated probe h
  exact ⟨h.read, obs, hscan, reportsStale_iff h.dated hobs⟩

end Agreement

/-! ### A target with a history -/

def fourDaysAgo : JsString := js "2025-12-28T00:00:00.000Z"

def anHourAgo : JsString := js "2025-12-31T23:00:00.000Z"

/-- The first of January 2026 -/
def tankRuntime : ProbeRuntime := { january with
  dateParse s := if s = fourDaysAgo then some 1766880000000
    else if s = anHourAgo then some 1767222000000 else none
  uuid _ := js "00000000-0000-4000-8000-000000000000"
  toHours x := x }

def tankProbe : BackupOverdueProbe := ⟨js "truenas", js "/data"⟩

/-- A backup that is to be no older than a day -/
def tankEntry (takenAt : JsString) : JsValue :=
  .obj [(js "schema_version", .num (.ofNat 2)), (js "platform", .str (js "truenas")),
    (js "target_id", .str (js "tank")), (js "backup_type", .str (js "snapshot")), (js "taken_at", .str takenAt),
    (js "location", .str (js "/backups")), (js "size_bytes", .num (.ofNat 0)),
    (js "max_age_seconds", .num (.ofNat 86400)), (js "checksum", .str []), (js "verified", .bool false),
    (js "hmac", .str [])]

def tankManifest (dates : List JsString) : JsValue :=
  .obj [(js "schema_version", .num (.ofNat 2)), (js "entries", .arr (dates.map tankEntry))]

theorem tankEntry_dated {date : JsString} (h : date = fourDaysAgo ∨ date = anHourAgo) :
    DatedEntry tankRuntime.toBackupRuntime (tankEntry date) where
  platform := ⟨_, rfl⟩
  targetId := ⟨_, rfl⟩
  date := ⟨_, rfl⟩
  maxAge := ⟨_, rfl⟩
  dated := by rcases h with rfl | rfl <;> decide

theorem tankManifest_parsed : jsonParse (jsonText (tankManifest [fourDaysAgo, anHourAgo])) =
    some (tankManifest [fourDaysAgo, anHourAgo]) := jsonParse_jsonText _ (by decide)

theorem tankManifest_dated : DatedManifest tankRuntime.toBackupRuntime
    (jsonText (tankManifest [fourDaysAgo, anHourAgo])) [tankEntry fourDaysAgo, tankEntry anHourAgo] where
  parsed := ⟨_, tankManifest_parsed, by decide +kernel, rfl⟩
  dated := by
    intro e he
    rcases List.mem_cons.mp he with rfl | he
    · exact tankEntry_dated (.inl rfl)
    · rw [List.mem_singleton.mp he]
      exact tankEntry_dated (.inr rfl)

theorem overdue_agrees_iff_tank :
    ∃ obs, tankProbe.scan tankRuntime (.ok (jsonText (tankManifest [fourDaysAgo, anHourAgo]))) = .ok obs ∧
      (ReportsStale tankRuntime.toBackupRuntime [tankEntry fourDaysAgo, tankEntry anHourAgo] obs ↔
        SupersededAreFresh tankRuntime.toBackupRuntime [tankEntry fourDaysAgo, tankEntry anHourAgo]) :=
  (overdue_agrees_iff tankRuntime tankProbe _ _ tankManifest_dated).2

/-- The backup of an hour ago is fresh, and still the target is reported because of the one before. -/
theorem superseded_reported : ¬ ∀ (rt : ProbeRuntime) (probe : BackupOverdueProbe) (text : JsString)
    (entries : List JsValue), DatedManifest rt.toBackupRuntime text entries →
      ∃ obs, probe.scan rt (.ok text) = .ok obs ∧ ReportsStale rt.toBackupRuntime entries obs := by
  intro h
  obtain ⟨obs, hscan, hreports⟩ := h tankRuntime tankProbe _ _ tankManifest_dated
  obtain ⟨obs', hscan', hobs'⟩ := scan_of_dated tankProbe tankManifest_dated
  rw [hscan] at hscan'
  cases hscan'
  have hfresh := (reportsStale_iff tankManifest_dated.dated hobs').mp hreports
  have hoverdue : overdue tankRuntime.toBackupRuntime (superseded (dateOf tankRuntime.toBackupRuntime)
      (tankEntry fourDaysAgo) (tankEntry anHourAgo)) = true := by decide +kernel
  have hsame : targetOf (tankEntry fourDaysAgo) = targetOf (tankEntry anHourAgo) := by decide +kernel
  have hnot := (List.pairwise_cons.mp hfresh).1 (tankEntry anHourAgo) (List.mem_singleton.mpr rfl) hsame
  exact Bool.false_ne_true (hnot.symm.trans hoverdue)

end Homelab
