import Homelab.EnumerationCalls
import Homelab.UnraidParsing

/-! The enumerator of Unraid hosts: array and disks, shares, GPUs and jobs. -/
namespace Homelab
open Js Dialogue

/-! ### Calls -/

structure UnraidOutput where
  stdout : JsString
  exitCode : ℤ

/-- The `exec` of the enumerator: a call that throws counts as one that has failed. -/
def unraidOutput : ExecOutcome → UnraidOutput
  | .threw => ⟨[], 1⟩
  | .exited exitCode stdout => ⟨stdout, exitCode⟩

def unraidExec (command : JsString) : Enumeration UnraidOutput :=
  .ask command fun outcome => .done (unraidOutput outcome)

/-- What has been printed, if the command has succeeded and printed something -/
def UnraidOutput.printed (res : UnraidOutput) : Option JsString :=
  if res.exitCode = 0 ∧ trim res.stdout ≠ [] then some res.stdout else none

/-- The lines that a command which has succeeded has printed -/
def UnraidOutput.lines (res : UnraidOutput) : List JsString :=
  if res.exitCode = 0 then (trimmedLines res.stdout).filter (· ≠ []) else []

/-- The loop over files that are read one after the other -/
def readEach {α β : Type} (each : α → Enumeration (List β)) : List α → Enumeration (List β)
  | [] => .done []
  | x :: xs => do
    let first ← each x
    let rest ← readEach each xs
    return first ++ rest

/-- `cat "${filePath}" 2>/dev/null` -/
def catFile (filePath : JsString) : JsString := js "cat \"" ++ filePath ++ js "\" 2>/dev/null"

/-! ### Fetchers -/

/-- The state of an array whose disks are known from `disks.ini` alone -/
def startedArray : ParsedArray := ⟨js "STARTED", .ofNat 0, .ofNat 0, [], [], js "0"⟩

def arrayFromMdcmd (stdout : JsString) : Option (ParsedArray × List ParsedDisk) :=
  let kv := parseMdcmd stdout
  let disks := diskEntriesFromMdcmd kv
  if disks.isEmpty then none else some (arrayStateFromMdcmd kv, disks)

def fetchArrayAndDisks : Enumeration (Option (ParsedArray × List ParsedDisk)) := do
  let res ← unraidExec (js "mdcmd status 2>/dev/null")
  match res.printed.bind arrayFromMdcmd with
  | some found => return some found
  | none => do
    let res ← unraidExec (js "cat /var/local/emhttp/disks.ini 2>/dev/null")
    return res.printed.map fun stdout => (startedArray, diskEntriesFromDisksIni (parseIni stdout))

/-- The share of a `.cfg` file, unless the file is empty or has no name -/
def cfgShare (filePath : JsString) : Enumeration (List ParsedShare) := do
  let cfgRes ← unraidExec (catFile filePath)
  let shareName := dropSuffix (js ".cfg") (lastSegment filePath)
  match cfgRes.printed with
  | some stdout => return if shareName = [] then [] else [shareFromCfg shareName (parseFlatKv stdout)]
  | none => return []

def sharesFromCfgFiles : Enumeration (List ParsedShare) := do
  let listRes ← unraidExec (js "ls /boot/config/shares/*.cfg 2>/dev/null")
  match listRes.printed with
  | some stdout => readEach cfgShare ((trimmedLines stdout).filter fun s => (js ".cfg").isSuffixOf s)
  | none => return []

/-- The shares of `shares.ini`, if it has sections -/
def sharesFromText (stdout : JsString) : Option (List ParsedShare) :=
  let sections := parseIni stdout
  if sections.isEmpty then none else some (sharesFromIni sections)

def fetchShares : Enumeration (List ParsedShare) := do
  let res ← unraidExec (js "cat /var/local/emhttp/shares.ini 2>/dev/null")
  match res.printed.bind sharesFromText with
  | some shares => return shares
  | none => sharesFromCfgFiles

def nvidiaSmiCommand : JsString :=
  js "nvidia-smi --query-gpu=index,name,memory.total,driver_version,utilization.gpu,utilization.memory" ++
    js " --format=csv,noheader,nounits 2>/dev/null"

def fetchGpus : Enumeration (List ParsedGpu) := do
  let res ← unraidExec nvidiaSmiCommand
  return (res.printed.map parseNvidiaSmi).getD []

def cronJobs (source : JsString) : Enumeration (List ParsedJob) := do
  let res ← unraidExec (catFile source)
  return (res.printed.map fun stdout => parseCrontab stdout source).getD []

def fetchJobs : Enumeration (List ParsedJob) := do
  let pluginCronList ← unraidExec (js "find /boot/config/plugins -name \"*.cron\" 2>/dev/null")
  let sysCronList ← unraidExec (js "ls /etc/cron.d/ 2>/dev/null")
  readEach cronJobs (pluginCronList.lines ++ sysCronList.lines.map fun name => js "/etc/cron.d/" ++ name)

/-! ### Entities and edges -/

variable (ctx : EnumerationContext)

def unraidEntity (id kind name : JsString) (attributes : Fields) : Fields :=
  foundEntity ctx (js "unraid") id kind (.str name) attributes

/-- The edge from an entity to its platform -/
def platformEdge (id : JsString) : Fields := foundEdge ctx (js "member-of") id (platformEntityId ctx)

def arrayEntityId : JsString := js "storage-array:" ++ ctx.platformId

def arrayFound (array : ParsedArray) : EnumerationResult :=
  ⟨[unraidEntity ctx (arrayEntityId ctx) (js "storage-array") (ctx.host.getD ctx.platformId ++ js " array")
      [(js "state", .str array.mdState), (js "invalid_slots", .num array.mdInvalidSlots),
        (js "disabled_disks", .num array.mdNumDisabled),
        (js "protection", .str (if array.mdVersion = [] then js "UNKNOWN" else array.mdVersion)),
        (js "resync_action", .str array.mdResyncAction), (js "resync_position", .str array.mdResyncPos)]],
    [platformEdge ctx (arrayEntityId ctx)]⟩

def diskEntityId (slot : JsString) : JsString := js "storage-disk:" ++ ctx.platformId ++ js ":" ++ slot

def diskFound (disk : ParsedDisk) : EnumerationResult :=
  ⟨[unraidEntity ctx (diskEntityId ctx disk.slot) (js "storage-disk") disk.slot
      [(js "device", .str disk.device), (js "slot", .str disk.slot), (js "size_bytes", .str disk.size),
        (js "temp_celsius", .str disk.temp), (js "status", .str disk.status),
        (js "smart_health", .str disk.smartHealth), (js "spun_down", .bool disk.spunDown)]],
    [foundEdge ctx (js "member-of") (diskEntityId ctx disk.slot) (arrayEntityId ctx),
      platformEdge ctx (diskEntityId ctx disk.slot)]⟩

/-- The entity of a disk that is named by its slot, or by its device -/
def diskEntityOf (disks : List ParsedDisk) (name : JsString) : Option JsString :=
  let bySlot := disks.reverse.find? fun disk => disk.slot = name
  let byDevice := disks.reverse.find? fun disk => disk.device ≠ [] ∧ disk.device = name
  (bySlot.or byDevice).map fun disk => diskEntityId ctx disk.slot

def shareFound (disks : List ParsedDisk) (share : ParsedShare) : EnumerationResult :=
  let shareEntityId := js "share:" ++ ctx.platformId ++ js ":" ++ share.name
  ⟨[unraidEntity ctx shareEntityId (js "share") share.name
      [(js "allocator", .str share.allocator),
        (js "included_disks", .arr (share.includedDisks.map JsValue.str)),
        (js "excluded_disks", .arr (share.excludedDisks.map JsValue.str)),
        (js "cache_usage", .str share.cacheUsage)]],
    platformEdge ctx shareEntityId ::
      (share.includedDisks.filterMap (diskEntityOf ctx disks)).map
        (foundEdge ctx (js "backed-by") shareEntityId)⟩

def gpuFound (gpu : ParsedGpu) : EnumerationResult :=
  let gpuEntityId := js "gpu:" ++ ctx.platformId ++ js ":" ++ gpu.index
  ⟨[unraidEntity ctx gpuEntityId (js "gpu") (if gpu.name ≠ [] then gpu.name else js "GPU " ++ gpu.index)
      [(js "index", .str gpu.index), (js "model", .str gpu.name),
        (js "memory_total_mib", .str gpu.memoryTotal), (js "driver_version", .str gpu.driverVersion),
        (js "utilization_gpu_pct", .str gpu.utilizationGpu),
        (js "utilization_memory_pct", .str gpu.utilizationMemory)]],
    [platformEdge ctx gpuEntityId, foundEdge ctx (js "runs-on") gpuEntityId (platformEntityId ctx)]⟩

/-- The first units of the job in Base64, without those that an id should not have -/
def stableKey (job : ParsedJob) : JsString :=
  let text := job.source ++ js ":" ++ job.schedule ++ js ":" ++ job.command
  ((base64 (encodeUtf8 text)).take 24).map fun c => if c = 0x2B ∨ c = 0x2F ∨ c = 0x3D then 0x5F else c

def jobFound (job : ParsedJob) : EnumerationResult :=
  let jobEntityId := js "job:" ++ ctx.platformId ++ js ":" ++ stableKey job
  ⟨[unraidEntity ctx jobEntityId (js "job") job.name
      [(js "schedule", .str job.schedule), (js "command", .str job.command),
        (js "source_file", .str job.source)]],
    [platformEdge ctx jobEntityId]⟩

/-- The results of the items of a category, one after the other -/
def foundAll {α : Type} (found : α → EnumerationResult) (items : List α) : EnumerationResult :=
  (items.map found).foldr EnumerationResult.append .none

/-- The array, if it is known, and its disks -/
def arrayAndDisksFound : Option (ParsedArray × List ParsedDisk) → EnumerationResult
  | some (array, disks) => (arrayFound ctx array).append (foundAll (diskFound ctx) disks)
  | none => .none

def unraidEnumerate : Enumeration EnumerationResult := do
  let arrayAndDisks ← fetchArrayAndDisks
  let disks := (arrayAndDisks.map Prod.snd).getD []
  let shares ← fetchShares
  let gpus ← fetchGpus
  let jobs ← fetchJobs
  return (((arrayAndDisksFound ctx arrayAndDisks).append (foundAll (shareFound ctx disks) shares)).append
    (foundAll (gpuFound ctx) gpus)).append (foundAll (jobFound ctx) jobs)

/-! ### What is found -/

variable {ctx}

theorem foundAll_found {α : Type} {found : α → EnumerationResult} (h : ∀ x, FoundNow ctx (found x))
    (items : List α) : FoundNow ctx (foundAll found items) := by
  induction items with
  | nil => exact foundNow_none
  | cons x xs ih => exact (h x).append ih

/-- One entity, and edges that are named by their ends -/
theorem foundNow_item {id kind name : JsString} {attributes : Fields} {edges : List Fields}
    (h : ∀ edge ∈ edges, ∃ type source target, edge = foundEdge ctx type source target) :
    FoundNow ctx ⟨[unraidEntity ctx id kind name attributes], edges⟩ := by
  constructor
  · intro record hrecord
    rw [List.mem_singleton.mp hrecord]
    exact foundEntity_reported ..
  · intro edge hedge
    obtain ⟨type, source, target, rfl⟩ := h edge hedge
    exact foundEdge_reported ..

theorem arrayFound_found (array : ParsedArray) : FoundNow ctx (arrayFound ctx array) := by
  apply foundNow_item
  intro edge hedge
  exact ⟨_, _, _, List.mem_singleton.mp hedge⟩

theorem diskFound_found (disk : ParsedDisk) : FoundNow ctx (diskFound ctx disk) := by
  apply foundNow_item
  intro edge hedge
  rcases List.mem_cons.mp hedge with rfl | hedge
  · exact ⟨_, _, _, rfl⟩
  · exact ⟨_, _, _, List.mem_singleton.mp hedge⟩

theorem shareFound_found (disks : List ParsedDisk) (share : ParsedShare) :
    FoundNow ctx (shareFound ctx disks share) := by
  apply foundNow_item
  intro edge hedge
  rcases List.mem_cons.mp hedge with rfl | hedge
  · exact ⟨_, _, _, rfl⟩
  · obtain ⟨disk, -, rfl⟩ := List.mem_map.mp hedge
    exact ⟨_, _, _, rfl⟩

theorem gpuFound_found (gpu : ParsedGpu) : FoundNow ctx (gpuFound ctx gpu) := by
  apply foundNow_item
  intro edge hedge
  rcases List.mem_cons.mp hedge with rfl | hedge
  · exact ⟨_, _, _, rfl⟩
  · exact ⟨_, _, _, List.mem_singleton.mp hedge⟩

theorem jobFound_found (job : ParsedJob) : FoundNow ctx (jobFound ctx job) := by
  apply foundNow_item
  intro edge hedge
  exact ⟨_, _, _, List.mem_singleton.mp hedge⟩

theorem arrayAndDisksFound_found (arrayAndDisks : Option (ParsedArray × List ParsedDisk)) :
    FoundNow ctx (arrayAndDisksFound ctx arrayAndDisks) := by
  cases arrayAndDisks with
  | none => exact foundNow_none
  | some found => exact (arrayFound_found found.1).append (foundAll_found diskFound_found found.2)

theorem unraidEnumerate_found (May : ∀ _ : JsString, ExecOutcome → Prop) :
    Returns May (FoundNow ctx) (unraidEnumerate ctx) := by
  apply returns_bind
  intro arrayAndDisks
  apply returns_bind
  intro shares
  apply returns_bind
  intro gpus
  apply returns_bind
  intro jobs
  apply returns_done
  apply FoundNow.append
  · apply FoundNow.append
    · exact (arrayAndDisksFound_found _).append (foundAll_found (shareFound_found _) _)
    · exact foundAll_found gpuFound_found _
  · exact foundAll_found jobFound_found _

/-! ### A host that does not answer -/

/-- A command that fails has printed nothing that is read. -/
theorem printed_unanswered {command : JsString} {outcome : ExecOutcome} (h : Unanswered command outcome) :
    (unraidOutput outcome).printed = none ∧ (unraidOutput outcome).lines = [] := by
  have hcode : (unraidOutput outcome).exitCode ≠ 0 := by
    cases outcome with
    | threw => exact one_ne_zero
    | exited exitCode stdout => exact h
  exact ⟨if_neg fun hprinted => hcode hprinted.1, if_neg hcode⟩

theorem fetchArrayAndDisks_unanswered : Yields Unanswered none fetchArrayAndDisks := by
  apply yields_ask
  intro first hfirst
  rw [done_bind, (printed_unanswered hfirst).1]
  apply yields_ask
  intro second hsecond
  rw [done_bind, (printed_unanswered hsecond).1]
  exact yields_done _

theorem fetchShares_unanswered : Yields Unanswered [] fetchShares := by
  apply yields_ask
  intro first hfirst
  rw [done_bind, (printed_unanswered hfirst).1]
  apply yields_ask
  intro second hsecond
  rw [done_bind, (printed_unanswered hsecond).1]
  exact yields_done _

theorem fetchGpus_unanswered : Yields Unanswered [] fetchGpus := by
  apply yields_ask
  intro outcome hfailed
  rw [done_bind, (printed_unanswered hfailed).1]
  exact yields_done _

theorem fetchJobs_unanswered : Yields Unanswered [] fetchJobs := by
  apply yields_ask
  intro plugins hplugins
  apply yields_ask
  intro system hsystem
  rw [done_bind, (printed_unanswered hplugins).2, (printed_unanswered hsystem).2]
  exact yields_done _

theorem unraidEnumerate_unanswered : Yields Unanswered .none (unraidEnumerate ctx) := by
  apply yields_bind fetchArrayAndDisks_unanswered
  apply yields_bind fetchShares_unanswered
  apply yields_bind fetchGpus_unanswered
  apply yields_bind fetchJobs_unanswered
  exact yields_done _

end Homelab
