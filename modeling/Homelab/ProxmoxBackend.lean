import Homelab.DeployBackend

/-! The Proxmox backend: instances that are created at build time and started by a deploy. -/
namespace Homelab
open Js Path Dialogue

/-! ### Parameters -/

/-- `CIDR_REGEX` of `proxmox-cli.ts`, and the one of the parameter. -/
def ipCidrRegex (s : JsString) : Bool := (matchCidr (digitsUpTo 2) s).isSome

/-- `PARAM_SCHEMA` of `proxmox.ts` -/
def proxmoxSchema : List (JsString × ParamSchema) :=
  [(js "node_id", requiredText .identifier),
    (js "workload_kind", .string true .undefined (some [js "lxc", js "vm"]) none none),
    (js "vmid", .number true .undefined (some (100, 999999))),
    (js "image_uri", requiredText .shellSafeArg), (js "registry_url", optionalText (some .url)),
    (js "storage_pool", requiredText .identifier), (js "hostname", requiredText .identifier),
    (js "ip_cidr", .string false .undefined none (some ipCidrRegex) none),
    (js "cores", numberIn 1 1 64), (js "memory_mb", numberIn 512 128 524288),
    (js "health_url", optionalText (some .url)),
    (js "health_timeout_seconds", numberIn 120 10 600)]

/-- `Number.isInteger`; the decimals are in lowest terms. -/
def isIntegral : JsNumber → Bool
  | .fin d => 0 ≤ d.exp
  | _ => false

/-- `parseVmid` -/
def parseVmid (raw : JsValue) : Except DeployError JsNumber :=
  let refused : Except DeployError JsNumber :=
    invalidParams (js "vmid must be an integer; got " ++ raw.coerce)
  match raw with
  | .num x => if isIntegral x then .ok x else refused
  | .str s => if s ≠ [] && s.all isDigitUnit then .ok (numericLiteral s) else refused
  | _ => refused

/-- The vmid of a build or a deploy. -/
def checkedVmid (params : Fields) : Except DeployError JsNumber := do
  let vmid ← parseVmid (getOwn (js "vmid") params)
  if vmid.lt (.ofNat 100) then
    invalidParams (js "vmid " ++ vmid.toText ++ js " is in Proxmox's reserved range (< 100)")
  else return vmid

/-- `kind === 'lxc' ? 'pct' : 'qm'` -/
def toolOf (kind : JsValue) : JsString :=
  match kind with
  | .str s => if s = js "lxc" then js "pct" else js "qm"
  | _ => js "qm"

/-! ### Creating an instance -/

/-- `ensureSafe` -/
def ensureSafe (name value : JsString) : Except DeployError JsString :=
  if value ≠ [] && value.all fun c => isAlphanumeric c || c ∈ js "_./@:+=,-" then .ok value
  else invalidParams (js "proxmox-cli: arg '" ++ name ++ js "' contains shell-unsafe characters")

structure CreateOpts where
  vmid : JsNumber
  imageUri : JsString
  storagePool : JsString
  hostname : JsString
  cores : JsString
  memoryMb : JsString
  ipCidr : Option JsString

/-- `buildPctCreateCmd` -/
def buildPctCreateCmd (opts : CreateOpts) : Except DeployError (List JsString) := do
  let image ← ensureSafe (js "image_uri") opts.imageUri
  let pool ← ensureSafe (js "storage_pool") opts.storagePool
  let hostname ← ensureSafe (js "hostname") opts.hostname
  let words := [js "pct", js "create", opts.vmid.toText, image, js "--storage", pool,
    js "--hostname", hostname, js "--cores", opts.cores, js "--memory", opts.memoryMb]
  match opts.ipCidr with
  | none => return words
  | some cidr =>
    if ipCidrRegex cidr then return words ++ [js "--net0", js "name=eth0,ip=" ++ cidr]
    else invalidParams (js "proxmox-cli: ip_cidr '" ++ cidr ++ js "' is not a CIDR")

/-- `buildQmCreateCmd` -/
def buildQmCreateCmd (opts : CreateOpts) : Except DeployError (List JsString) := do
  let hostname ← ensureSafe (js "hostname") opts.hostname
  let pool ← ensureSafe (js "storage_pool") opts.storagePool
  return [js "qm", js "create", opts.vmid.toText, js "--name", hostname, js "--cores", opts.cores,
    js "--memory", opts.memoryMb, js "--net0", js "virtio,bridge=vmbr0", js "--ide2",
    pool ++ js ":cloudinit", js "--boot", js "order=scsi0"]

/-- `buildQmImportDiskCmd` -/
def buildQmImportDiskCmd (opts : CreateOpts) : Except DeployError (List JsString) := do
  let image ← ensureSafe (js "image_uri") opts.imageUri
  let pool ← ensureSafe (js "storage_pool") opts.storagePool
  return [js "qm", js "importdisk", opts.vmid.toText, image, pool]

/-- A command whose failure is one of the build. -/
def runBuildCommand (words : Except DeployError (List JsString)) : Deploy Unit := do
  let words ← Deploy.check words
  let result ← Deploy.exec words
  if result.exitCode ≠ 0 then
    Deploy.raise (.plain .buildFailed (result.output.take 500))
  else return ()

/-- `runPctCreate` -/
def runPctCreate (opts : CreateOpts) : Deploy Unit := runBuildCommand (buildPctCreateCmd opts)

/-- `runQmCreate` -/
def runQmCreate (opts : CreateOpts) : Deploy Unit := do
  runBuildCommand (buildQmCreateCmd opts)
  runBuildCommand (buildQmImportDiskCmd opts)

/-- `proxmoxRecordPath` -/
def proxmoxRecordPath (host : DeployHost) (vmid : JsNumber) : Except JsString JsString :=
  recordPath host (js "proxmox") vmid.toText

/-- The vmid of the record that a build finds; whatever it throws is caught. -/
def recordedVmid (host : DeployHost) (vmid : JsNumber) : Deploy JsValue :=
  Deploy.catching (do
    let path ← Deploy.orThrow (proxmoxRecordPath host vmid)
    let file ← Deploy.readRecord path
    let payload ← Deploy.orThrow (readSignedRecord host.toHmacHost path file)
    match payload with
    | none => return .null
    | some .null => return .null
    | some record => Deploy.orThrow (readProperty record (js "vmid"))) fun _ => .done .null

def createOpts (params : Fields) (vmid : JsNumber) : CreateOpts where
  vmid := vmid
  imageUri := paramText params (js "image_uri")
  storagePool := paramText params (js "storage_pool")
  hostname := paramText params (js "hostname")
  cores := ((getOwn (js "cores") params).orElse (.num (.ofNat 1))).coerce
  memoryMb := ((getOwn (js "memory_mb") params).orElse (.num (.ofNat 512))).coerce
  ipCidr := if isUndefined (getOwn (js "ip_cidr") params) then none
    else some (paramText params (js "ip_cidr"))

/-- The artifact of a build. -/
def proxmoxArtifact (host : DeployHost) (ctx : BuildContext) (params : Fields) (vmid : JsNumber)
    (previousVmid : JsValue) : BuildArtifact :=
  let nodeId := paramText params (js "node_id")
  let kind := paramText params (js "workload_kind")
  let registry := getOwn (js "registry_url") params
  ⟨js "proxmox-instance",
    js "proxmox://" ++ nodeId ++ js "/" ++ kind ++ js "/" ++ vmid.toText,
    host.sha256 (nodeId ++ js ":" ++ kind ++ js ":" ++ vmid.toText ++ js ":" ++
      paramText params (js "image_uri") ++ js ":" ++ ctx.commitSha),
    [(js "node_id", getOwn (js "node_id") params), (js "vmid", .num vmid),
      (js "workload_kind", getOwn (js "workload_kind") params),
      (js "hostname", getOwn (js "hostname") params),
      (js "image_uri", getOwn (js "image_uri") params)] ++
    (if isUndefined registry then [] else [(js "registry_url", registry)]) ++
    [(js "previous_vmid", previousVmid)]⟩

/-- The instance of a build is created. -/
def createInstance (params : Fields) (vmid : JsNumber) : Deploy Unit :=
  if paramText params (js "workload_kind") = js "lxc" then runPctCreate (createOpts params vmid)
  else runQmCreate (createOpts params vmid)

/-- `build` -/
def proxmoxBuild (host : DeployHost) (ctx : BuildContext) : Deploy BuildArtifact := do
  let params ← Deploy.check (validateParameters ctx.params proxmoxSchema)
  let vmid ← Deploy.check (checkedVmid params)
  Deploy.getConnection (getOwn (js "node_id") params)
  createInstance params vmid
  let previousVmid ← recordedVmid host vmid
  return proxmoxArtifact host ctx params vmid previousVmid

/-! ### Starting an instance -/

/-- `(await getContainerStatus(conn, kind, vmid)) === 'running'` -/
def isRunning (kind : JsValue) (vmid : JsString) : Deploy Bool := do
  let result ← Deploy.exec [toolOf kind, js "status", vmid]
  return result.exitCode == 0 && decide (js "running" <:+: lowerCase result.stdout)

/-- The loop of `pollForRunning`. -/
def awaitInstance (kind : JsValue) (vmid : JsString) (deadline : ℕ) : ℕ → Deploy Unit
  | 0 => .fail .polling
  | turns+1 => do
    let t ← Deploy.now
    if t < deadline then do
      let running ← isRunning kind vmid
      if running then return ()
      else do
        Deploy.sleep 2000
        awaitInstance kind vmid deadline turns
    else Deploy.raise (.plain .deployFailed
      (js "vmid " ++ vmid ++ js " did not reach 'running' within 60000ms"))

/-- `pollForRunning`, always with a timeout of 60 s. -/
def pollInstance (turns : ℕ) (kind vmid : JsValue) : Deploy Unit := do
  let t ← Deploy.now
  let text ← templateOf vmid
  awaitInstance kind text (t+60000) turns

/-- The first IPv4 address other than the loopback one in a list of descriptions. -/
def firstAddress (familyKey family localKey : JsString) : List JsValue → Except JsString (Option JsString)
  | [] => .ok none
  | info :: rest => do
    let f ← readProperty info familyKey
    match f, property localKey info with
    | .str f, .str ip =>
      if f = family ∧ ip ≠ js "127.0.0.1" then return some ip
      else firstAddress familyKey family localKey rest
    | _, _ => firstAddress familyKey family localKey rest

/-- `parseIpJson`, of which only the address is used. -/
def parseIpJson (stdout : JsString) : Except JsString (Option JsString) :=
  match jsonParse stdout with
  | some (.arr entries) => interfaces entries
  | _ => .ok none
where
  interfaces : List JsValue → Except JsString (Option JsString)
    | [] => .ok none
    | entry :: rest => do
      match ← readProperty entry (js "addr_info") with
      | .arr infos =>
        match ← firstAddress (js "family") (js "inet") (js "local") infos with
        | some ip => return some ip
        | none => interfaces rest
      | _ => interfaces rest

/-- The addresses that the guest agent of a VM reports; whatever throws is no address. -/
def guestAddress (stdout : JsString) : Option JsString :=
  match jsonParse stdout with
  | some (.arr interfaces) => (scan interfaces).toOption.join
  | _ => none
where
  scan : List JsValue → Except JsString (Option JsString)
    | [] => .ok none
    | iface :: rest => do
      match (← readProperty iface (js "ip-addresses")).orElse (.arr []) with
      | .arr infos =>
        match ← firstAddress (js "ip-address-type") (js "ipv4") (js "ip-address") infos with
        | some ip => return some ip
        | none => scan rest
      | .str _ => scan rest
      | _ => .error (js "addrs is not iterable")

/-- `resolveAssignedIp` -/
def resolveAssignedIp (kind : JsValue) (vmid : JsString) : Deploy JsValue :=
  if toolOf kind = js "pct" then do
    let result ← Deploy.exec [js "pct", js "exec", vmid, js "--", js "ip", js "-j", js "addr",
      js "show", js "eth0"]
    if result.exitCode ≠ 0 then return .null
    else do
      let ip ← Deploy.orThrow (parseIpJson result.stdout)
      return ip.elim .null .str
  else do
    let result ← Deploy.exec [js "qm", js "guest", js "cmd", vmid, js "network-get-interfaces"]
    if result.exitCode ≠ 0 then return .null
    else return (guestAddress result.stdout).elim .null .str

/-! ### Deploying -/

/-- `details` of the record of a deploy -/
def proxmoxDetails (params : Fields) (vmid : JsNumber) (ip previousVmid : JsValue)
    (startedAt : JsString) : Fields :=
  [(js "node_id", getOwn (js "node_id") params), (js "vmid", .num vmid),
    (js "workload_kind", getOwn (js "workload_kind") params), (js "ip", ip),
    (js "hostname", getOwn (js "hostname") params), (js "image_uri", getOwn (js "image_uri") params),
    (js "previous_vmid", previousVmid), (js "started_at", .str startedAt)]

/-- What is kept for the next build of the vmid. -/
def proxmoxKept (params : Fields) (vmid : JsNumber) : Fields :=
  [(js "vmid", .num vmid), (js "workload_kind", getOwn (js "workload_kind") params),
    (js "hostname", getOwn (js "hostname") params), (js "image_uri", getOwn (js "image_uri") params)]

/-- The records of a deploy: the one for the next build is persisted, the other returned. -/
def proxmoxRecord (host : DeployHost) (artifact : BuildArtifact) (env : JsString) (params : Fields)
    (vmid : JsNumber) (ip : JsValue) : Deploy DeploymentRecord := do
  let previousVmid := (getOwn (js "previous_vmid") artifact.metadata).orElse .null
  let startedAt ← currentIso host
  let id ← Deploy.generateId
  let path ← Deploy.orThrow (proxmoxRecordPath host vmid)
  persistRecord host path (proxmoxKept params vmid)
  Deploy.orThrow (signDeploymentRecord host {
    id := id
    backendName := js "proxmox"
    target := js "homelab-proxmox"
    envName := env
    artifactLocation := artifact.location
    stateful := none
    details := proxmoxDetails params vmid ip previousVmid startedAt
    deployedAt := startedAt })

/-- `deploy` -/
def proxmoxDeploy (host : DeployHost) (turns : ℕ) (artifact : BuildArtifact) (env : JsString)
    (rawParams : Fields) : Deploy DeploymentRecord := do
  let params ← Deploy.check (validateParameters rawParams proxmoxSchema)
  let vmid ← Deploy.check (checkedVmid params)
  let kind := getOwn (js "workload_kind") params
  Deploy.getConnection (getOwn (js "node_id") params)
  let started ← Deploy.exec [toolOf kind, js "start", vmid.toText]
  if started.exitCode ≠ 0 then
    Deploy.raise (.plain .deployFailed (started.output.take 500))
  else do
    pollInstance turns kind (.num vmid)
    let ip ← resolveAssignedIp kind vmid.toText
    proxmoxRecord host artifact env params vmid ip

/-! ### Health and rollback -/

/-- `healthCheck` -/
def proxmoxHealthCheck (host : DeployHost) (record : DeploymentRecord) : Deploy HealthStatus := do
  let details := record.payload.details
  Deploy.getConnection (getOwn (js "node_id") details)
  let start ← Deploy.now
  let outcome ← caughtProbe do
    let vmid ← templateOf (getOwn (js "vmid") details)
    let words := if toolOf (getOwn (js "workload_kind") details) = js "pct" then
        [js "pct", js "exec", vmid, js "--", js "/bin/true"]
      else [js "qm", js "guest", js "cmd", vmid, js "ping"]
    let result ← Deploy.exec words
    if result.exitCode = 0 then return (true, .undefined)
    else return (false, .str (result.output.take 200))
  reportProbe host start outcome

/-- `stop failed: <output>`, or nothing. -/
def failureNote (what : JsString) (result : CommandResult) : List JsString :=
  if result.exitCode ≠ 0 then [what ++ js " failed: " ++ result.output.take 200] else []

/-- `rollback` -/
def proxmoxRollback (turns : ℕ) (record : DeploymentRecord) : Deploy RollbackResult :=
  let details := record.payload.details
  let previousVmid := getOwn (js "previous_vmid") details
  let kind := getOwn (js "workload_kind") details
  if isNullish previousVmid then
    return ⟨false, none, [js "no previous record to roll back to"]⟩
  else do
    Deploy.getConnection (getOwn (js "node_id") details)
    let vmid ← templateOf (getOwn (js "vmid") details)
    let stopped ← Deploy.exec [toolOf kind, js "stop", vmid]
    let previous ← templateOf previousVmid
    let started ← Deploy.exec [toolOf kind, js "start", previous]
    let errors := failureNote (js "stop") stopped ++ failureNote (js "start") started
    if started.exitCode ≠ 0 then return ⟨false, none, errors⟩
    else do
      let failure ← Deploy.failureOf (pollInstance turns kind previousVmid)
      match failure with
      | some message => return ⟨false, none, errors ++ [message]⟩
      | none => do
        let node ← templateOf (getOwn (js "node_id") details)
        let kindText ← templateOf kind
        return ⟨errors == [],
          some (js "proxmox://" ++ node ++ js "/" ++ kindText ++ js "/" ++ previous), errors⟩

end Homelab
