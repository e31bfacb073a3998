import Homelab.Discover
import Homelab.NodePath
import Homelab.Transports
import Homelab.VaultResolver

/-! The connections that a runtime makes of the hosts that the operator has declared, and the files of their
keys. -/
namespace Homelab
open Js Automaton

/-! ### The configuration -/

inductive ConfigError
  | invalid (configPath reason : JsString)
  | notFound (configPath : JsString)

inductive ConfigPlatform
  | dockerSwarmManager
  | dockerSwarmWorker
  | unraid
deriving DecidableEq

structure SshFallback where
  host : JsString
  port : ℕ
  user : JsString
  keyRef : CredentialRef

structure ConfigHost where
  hostname : JsString
  platform : ConfigPlatform
  mcpEndpoint : Option JsString
  sshFallback : SshFallback

/-! ### The hosts of a runtime -/

/-- An entry of the inventory, as far as a connection is made of it -/
structure InventoryEntry where
  type : PlatformType
  host : JsString
  port : ℕ
  sshHost : Option JsString
  sshPort : Option ℕ
  connection : Fields

namespace InventoryEntry

variable (entry : InventoryEntry)

def optStr (key : JsString) : Option JsString :=
  match getOwn key entry.connection with
  | .str s => some s
  | _ => none

def str (key fallback : JsString) : JsString := (entry.optStr key).getD fallback

def optBool (key : JsString) : Option Bool :=
  match getOwn key entry.connection with
  | .bool b => some b
  | _ => none

def preferTransport : Option Transport :=
  match entry.optStr (js "prefer") with
  | none => none
  | some v => if v = js "mcp" then some .mcp else if v = js "ssh" then some .ssh else none

def hostname : JsString := entry.sshHost.getD entry.host

def baseUrl : JsString :=
  entry.str (js "base_url") (js "https://" ++ entry.host ++ js ":" ++ countText entry.port)

/-- `mcpOrSshOpts`; `mcpWired` tells whether an MCP client is given. -/
def mcpOrSshOpts (mcpWired : Bool) (mcpServerName : JsString) : ConnectionOptions where
  connectionClass := .mcpOrSsh mcpServerName
  hostname := entry.hostname
  sshUser := entry.optStr (js "ssh_user")
  sshPort := entry.sshPort
  privateKeyPath := entry.str (js "ssh_key_path") []
  certPath := entry.str (js "ssh_cert_path") []
  preferTransport := entry.preferTransport
  mcpTimeoutMs := none
  mcpWired := mcpWired

end InventoryEntry

structure HttpsOptions where
  hostname : JsString
  baseUrl : JsString
  token : Option JsString
  apiKey : Option JsString
  insecure : Option Bool

/-- What the factory makes: a connection over `ssh` or an MCP server, or one over HTTPS, a TrueNAS with the
options of its `ssh` -/
inductive MadeConnection
  | host (opts : ConnectionOptions)
  | unifi (opts : HttpsOptions)
  | truenas (opts : HttpsOptions) (ssh : ConnectionOptions)

/-- `createConnection` -/
def createConnection (mcpWired : Bool) (entry : InventoryEntry) : MadeConnection :=
  let docker := MadeConnection.host (entry.mcpOrSshOpts mcpWired (js "mcp-server-docker"))
  let unraid := { entry.mcpOrSshOpts false [] with connectionClass := .unraid, preferTransport := none }
  match entry.type with
  | .proxmoxVe => .host (entry.mcpOrSshOpts mcpWired (js "mcp-server-proxmox"))
  | .docker => docker
  | .kubernetes => .host (entry.mcpOrSshOpts mcpWired (js "mcp-server-kubernetes"))
  | .dockerSwarm => docker
  | .portainer => docker
  | .unifi =>
    .unifi ⟨entry.hostname, entry.baseUrl, entry.optStr (js "https_token"), entry.optStr (js "api_key"),
      entry.optBool (js "insecure")⟩
  | .truenas =>
    .truenas ⟨entry.hostname, entry.baseUrl, entry.optStr (js "api_token"), none, entry.optBool (js "insecure")⟩
      unraid
  | .unraid => .host unraid

def configPlatformToType : ConfigPlatform → PlatformType
  | .dockerSwarmManager => .dockerSwarm
  | .dockerSwarmWorker => .dockerSwarm
  | .unraid => .unraid

/-! ### `assembleRuntime` -/

abbrev KeyFiles := JsString → Option (List UInt8)

/-- How writing a key has ended; when it throws, anything may be left at the path. -/
inductive KeyWrite
  | written
  | failed (left : Option (List UInt8))

/-- What the turn of a host waits for -/
structure HostTurn where
  resolved : Except VaultError ResolvedSecret
  write : KeyWrite

/-- The key, when it has been resolved and written -/
def HostTurn.key? (turn : HostTurn) : Option (List UInt8) :=
  match turn.resolved, turn.write with
  | .ok resolved, .written => some resolved.value
  | _, _ => none

/-- The data directory lies in the home directory. -/
def keysDir (homedir : JsString) : JsString :=
  Path.join [Path.join [homedir, js ".autonomous-dev-homelab"], js ".keys"]

def keyPath (homedir hostname : JsString) : JsString := Path.join [keysDir homedir, hostname ++ js ".key"]

/-- What the loop over the hosts has made -/
structure Assembly where
  disk : KeyFiles
  tempKeyPaths : List JsString
  preloaded : JsString → Option InventoryEntry

section Runtime

variable (homedir : JsString)

namespace ConfigHost

variable (host : ConfigHost)

def keyPath : JsString := Homelab.keyPath homedir host.hostname

/-- `mcp_endpoint`, unless it is empty -/
def declaredEndpoint : Option JsString :=
  match host.mcpEndpoint with
  | some endpoint => if endpoint ≠ [] then some endpoint else none
  | none => none

def connection : Fields :=
  [(js "ssh_user", .str host.sshFallback.user), (js "ssh_key_path", .str (host.keyPath homedir))] ++
    match host.declaredEndpoint with
    | some endpoint => [(js "mcp_endpoint", .str endpoint), (js "prefer", .str (js "mcp"))]
    | none => [(js "prefer", .str (js "ssh"))]

def inventoryEntry : InventoryEntry where
  type := configPlatformToType host.platform
  host := host.sshFallback.host
  port := host.sshFallback.port
  sshHost := some host.sshFallback.host
  sshPort := some host.sshFallback.port
  connection := host.connection homedir

end ConfigHost

/-- The body of the loop. What throws leaves the host unseeded. -/
def seedHost (s : Assembly) (host : ConfigHost) (turn : HostTurn) : Assembly :=
  match turn.resolved with
  | .error _ => s
  | .ok resolved =>
    match turn.write with
    | .failed left => { s with disk := Function.update s.disk (host.keyPath homedir) left }
    | .written =>
      { disk := Function.update s.disk (host.keyPath homedir) (some resolved.value)
        tempKeyPaths := s.tempKeyPaths ++ [host.keyPath homedir]
        preloaded := Function.update s.preloaded host.hostname (some (host.inventoryEntry homedir)) }

def seedHosts (s : Assembly) : List (ConfigHost × HostTurn) → Assembly
  | [] => s
  | (host, turn) :: turns => seedHosts (seedHost homedir s host turn) turns

/-- What assembling a runtime depends on; `loaded` are the hosts of the configuration, which has been validated. -/
structure RuntimeWorld where
  loaded : Except ConfigError (List ConfigHost)
  homedir : JsString
  pinged : Except VaultError Unit
  keysDirMade : Except JsString Unit
  disk : KeyFiles
  turn : ℕ → CredentialRef → HostTurn

inductive RuntimeError
  | config (e : ConfigError)
  | vault (e : VaultError)
  | thrown (message : JsString)

/-- The hosts of a configuration, each with its turn -/
def RuntimeWorld.turns (world : RuntimeWorld) (hosts : List ConfigHost) : List (ConfigHost × HostTurn) :=
  hosts.mapIdx fun i host => (host, world.turn i host.sshFallback.keyRef)

/-- What the loop makes of the hosts -/
def RuntimeWorld.seeded (world : RuntimeWorld) (hosts : List ConfigHost) : Assembly :=
  seedHosts world.homedir ⟨world.disk, [], fun _ => none⟩ (world.turns hosts)

/-- `assembleRuntime`: nothing is written before Vault has answered. -/
def RuntimeWorld.assembleRuntime (world : RuntimeWorld) : Except RuntimeError Assembly := do
  let hosts ← world.loaded.mapError .config
  world.pinged.mapError .vault
  world.keysDirMade.mapError .thrown
  return world.seeded hosts

/-- The factory of the pool: without a client for an MCP server -/
def Assembly.connectionFor (s : Assembly) (id : JsString) : Except JsString MadeConnection :=
  match s.preloaded id with
  | none => .error (js "platform '" ++ id ++ js "' not in preloaded map")
  | some entry => .ok (createConnection false entry)

/-- `shutdown`; a file that cannot be removed stays. -/
def Assembly.shutdown (s : Assembly) (removes : JsString → Bool) : KeyFiles := fun path =>
  if path ∈ s.tempKeyPaths ∧ removes path = true then none else s.disk path

end Runtime

/-! ### What the loop has made -/

section Seeding

variable {homedir : JsString} {s : Assembly}

theorem seedHost_seeded {host : ConfigHost} {turn : HostTurn} {key : List UInt8}
    (h : turn.key? = some key) : seedHost homedir s host turn =
      { disk := Function.update s.disk (host.keyPath homedir) (some key)
        tempKeyPaths := s.tempKeyPaths ++ [host.keyPath homedir]
        preloaded := Function.update s.preloaded host.hostname (some (host.inventoryEntry homedir)) } := by
  obtain ⟨resolved, write⟩ := turn
  cases resolved with
  | error e => cases h
  | ok resolved =>
    cases write with
    | failed left => cases h
    | written =>
      obtain rfl := Option.some.inj h
      rfl

/-- A host that is left unseeded may leave something at the path of its key. -/
theorem seedHost_unseeded (homedir : JsString) (s : Assembly) (host : ConfigHost) {turn : HostTurn}
    (h : turn.key? = none) :
    ∃ disk, seedHost homedir s host turn = { s with disk } ∧
      ∀ path, path ≠ host.keyPath homedir → disk path = s.disk path := by
  obtain ⟨resolved, write⟩ := turn
  cases resolved with
  | error e => exact ⟨s.disk, rfl, fun _ _ => rfl⟩
  | ok resolved =>
    cases write with
    | failed left => exact ⟨_, rfl, fun path hpath => Function.update_of_ne hpath _ _⟩
    | written => cases h

theorem seedHost_disk {host : ConfigHost} {turn : HostTurn} {path : JsString}
    (h : path ≠ host.keyPath homedir) : (seedHost homedir s host turn).disk path = s.disk path := by
  cases hkey : turn.key? with
  | some key =>
    rw [seedHost_seeded hkey]
    exact Function.update_of_ne h _ _
  | none =>
    obtain ⟨disk, heq, hdisk⟩ := seedHost_unseeded homedir s host hkey
    rw [heq]
    exact hdisk path h

/-- The loop writes to the paths of the keys only. -/
theorem seedHosts_disk {turns : List (ConfigHost × HostTurn)} {path : JsString}
    (h : ∀ p ∈ turns, path ≠ p.1.keyPath homedir) : (seedHosts homedir s turns).disk path = s.disk path := by
  induction turns generalizing s with
  | nil => rfl
  | cons p turns ih =>
    obtain ⟨hp, hturns⟩ := List.forall_mem_cons.mp h
    exact (ih hturns).trans (seedHost_disk hp)

/-- The files that are to be removed are those of the hosts that have been seeded. -/
theorem mem_tempKeyPaths {turns : List (ConfigHost × HostTurn)} {path : JsString} :
    path ∈ (seedHosts homedir s turns).tempKeyPaths ↔
      path ∈ s.tempKeyPaths ∨ ∃ p ∈ turns, p.2.key?.isSome = true ∧ p.1.keyPath homedir = path := by
  induction turns generalizing s with
  | nil => simp [seedHosts]
  | cons p turns ih =>
    have hstep : path ∈ (seedHost homedir s p.1 p.2).tempKeyPaths ↔
        path ∈ s.tempKeyPaths ∨ (p.2.key?.isSome = true ∧ p.1.keyPath homedir = path) := by
      cases hkey : p.2.key? with
      | some key =>
        rw [seedHost_seeded hkey, List.mem_append, List.mem_singleton, eq_comm]
        simp
      | none =>
        obtain ⟨disk, heq, -⟩ := seedHost_unseeded homedir s p.1 hkey
        rw [heq]
        simp
    rw [seedHosts, ih, hstep, List.exists_mem_cons_iff, or_assoc]

/-- Every entry is that of a host whose key has been resolved and written. -/
theorem preloaded_seeded {turns : List (ConfigHost × HostTurn)} {id : JsString} {entry : InventoryEntry}
    (h : (seedHosts homedir s turns).preloaded id = some entry) :
    s.preloaded id = some entry ∨ ∃ p ∈ turns, p.2.key?.isSome = true ∧ p.1.hostname = id ∧
      entry = p.1.inventoryEntry homedir := by
  induction turns generalizing s with
  | nil => exact .inl h
  | cons p turns ih =>
    rcases ih h with h | ⟨q, hq, hseeded⟩
    · cases hkey : p.2.key? with
      | some key =>
        rw [seedHost_seeded hkey] at h
        dsimp only at h
        by_cases hid : id = p.1.hostname
        · subst hid
          rw [Function.update_self] at h
          exact .inr ⟨p, List.mem_cons_self, by rw [hkey]; rfl, rfl, (Option.some.inj h).symm⟩
        · rw [Function.update_of_ne hid] at h
          exact .inl h
      | none =>
        obtain ⟨disk, heq, -⟩ := seedHost_unseeded homedir s p.1 hkey
        rw [heq] at h
        exact .inl h
    · exact .inr ⟨q, List.mem_cons_of_mem _ hq, hseeded⟩

/-- When no two hosts share a file, each file holds the key of its host. -/
theorem seedHosts_key {turns : List (ConfigHost × HostTurn)}
    (hfiles : (turns.map fun p => p.1.keyPath homedir).Nodup) {p : ConfigHost × HostTurn} (hp : p ∈ turns)
    {key : List UInt8} (hkey : p.2.key? = some key) :
    (seedHosts homedir s turns).disk (p.1.keyPath homedir) = some key := by
  induction turns generalizing s with
  | nil => cases hp
  | cons q turns ih =>
    obtain ⟨hnew, hfiles⟩ := List.nodup_cons.mp hfiles
    rcases List.mem_cons.mp hp with rfl | hp
    · have hlast : ∀ r ∈ turns, p.1.keyPath homedir ≠ r.1.keyPath homedir := by
        intro r hr heq
        exact hnew (List.mem_map.mpr ⟨r, hr, heq.symm⟩)
      rw [seedHosts, seedHosts_disk hlast, seedHost_seeded hkey]
      exact Function.update_self ..
    · exact ih hfiles hp

end Seeding

/-! ### Key files -/

theorem plain_keyName {hostname : JsString} (h : Path.slash ∉ hostname) : Path.Plain (hostname ++ js ".key") := by
  have hlength : (hostname ++ js ".key").length = hostname.length+4 := List.length_append
  have hlonger (s : JsString) (hs : s.length < 4) : hostname ++ js ".key" ≠ s := by
    rintro rfl
    omega
  refine ⟨hlonger [] (by decide), hlonger Path.dot (by decide), hlonger Path.dotdot (by decide), ?_⟩
  intro hmem
  rcases List.mem_append.mp hmem with hmem | hmem
  · exact h hmem
  · exact absurd hmem (by decide)

/-- Hostnames without a slash have files of their own. -/
theorem keyPath_injective {homedir a b : JsString} (ha : Path.slash ∉ a) (hb : Path.slash ∉ b)
    (h : keyPath homedir a = keyPath homedir b) : a = b := by
  have hlocate : Path.locate [] (keyPath homedir a) = Path.locate [] (keyPath homedir b) := by rw [h]
  rw [keyPath, keyPath, Path.locate_join (plain_keyName ha), Path.locate_join (plain_keyName hb)] at hlocate
  have hname := List.append_inj_right' hlocate rfl
  exact List.append_cancel_right (List.singleton_inj.mp hname)

/-- The hostnames are different, and have no slash. -/
structure HostnamesDiffer (hosts : List ConfigHost) : Prop where
  nodup : (hosts.map fun host => host.hostname).Nodup
  noSlash : ∀ host ∈ hosts, Path.slash ∉ host.hostname

theorem HostnamesDiffer.files {hosts : List ConfigHost} (h : HostnamesDiffer hosts) (homedir : JsString) :
    (hosts.map fun host => host.keyPath homedir).Nodup := by
  obtain ⟨hnodup, hslash⟩ := h
  induction hosts with
  | nil => exact List.nodup_nil
  | cons host hosts ih =>
    obtain ⟨hnew, hnodup⟩ := List.nodup_cons.mp hnodup
    obtain ⟨hhost, hslash⟩ := List.forall_mem_cons.mp hslash
    refine List.nodup_cons.mpr ⟨?_, ih hnodup hslash⟩
    intro hmem
    obtain ⟨other, hother, heq⟩ := List.mem_map.mp hmem
    exact hnew (List.mem_map.mpr ⟨other, hother, keyPath_injective (hslash other hother) hhost heq⟩)

namespace RuntimeWorld

variable (world : RuntimeWorld)

theorem turns_hosts (hosts : List ConfigHost) : (world.turns hosts).map Prod.fst = hosts := by
  apply List.ext_getElem <;> simp [turns]

variable {world} {hosts : List ConfigHost} {s : Assembly}

/-- The runtime has been made of these hosts. -/
structure Assembles (world : RuntimeWorld) (hosts : List ConfigHost) (s : Assembly) : Prop where
  loaded : world.loaded = .ok hosts
  assembled : world.assembleRuntime = .ok s

theorem Assembles.seeded (h : world.Assembles hosts s) : s = world.seeded hosts := by
  obtain ⟨hload, h⟩ := h
  rw [assembleRuntime, hload] at h
  change (world.pinged.mapError RuntimeError.vault >>= fun _ =>
    world.keysDirMade.mapError RuntimeError.thrown >>= fun _ => _) = _ at h
  cases hpinged : world.pinged with
  | error e =>
    rw [hpinged] at h
    cases h
  | ok _ =>
    cases hmade : world.keysDirMade with
    | error message =>
      rw [hpinged, hmade] at h
      cases h
    | ok _ =>
      rw [hpinged, hmade] at h
      exact (Except.ok.inj h).symm

theorem mem_turns_host {p : ConfigHost × HostTurn} (hp : p ∈ world.turns hosts) : p.1 ∈ hosts := by
  rw [← world.turns_hosts hosts]
  exact List.mem_map_of_mem hp

end RuntimeWorld

/-- What the operator has declared, and the key file of the host -/
def ConfigHost.declaredCreds (host : ConfigHost) (homedir : JsString) : SSHCertCredentials where
  host := host.sshFallback.host
  port := some host.sshFallback.port
  username := host.sshFallback.user
  privateKeyPath := host.keyPath homedir
  certPath := []
  knownHostsPath := none
  sshBin := none

/-- In every run of a connection, each process of `ssh` has the user, the host and the port that are declared, and
the key file of the host. -/
def ConfigHost.SshRuns (host : ConfigHost) (homedir : JsString) (opts : ConnectionOptions) : Prop :=
  ∀ calls, ConnectionReached opts calls → ∀ call commandLine, .sshRun call commandLine ∈ calls.shared.trail →
    ∃ command, commandLine = (host.declaredCreds homedir).commandLine command

/-- The connection that is made of a host -/
def ConfigHost.options (host : ConfigHost) (homedir : JsString) : ConnectionOptions where
  connectionClass := if host.platform = .unraid then .unraid else .mcpOrSsh (js "mcp-server-docker")
  hostname := host.sshFallback.host
  sshUser := some host.sshFallback.user
  sshPort := some host.sshFallback.port
  privateKeyPath := host.keyPath homedir
  certPath := []
  preferTransport :=
    if host.platform = .unraid then none
    else if host.declaredEndpoint.isSome = true then some .mcp
    else some .ssh
  mcpTimeoutMs := none
  mcpWired := false

theorem createConnection_host (host : ConfigHost) (homedir : JsString) :
    createConnection false (host.inventoryEntry homedir) = .host (host.options homedir) := by
  have hconnection := ConfigHost.connection.eq_1 homedir host
  rw [ConfigHost.options]
  cases hplatform : host.platform <;> cases hendpoint : host.declaredEndpoint <;>
    rw [ConfigHost.inventoryEntry, hplatform, hconnection, hendpoint] <;> rfl

/-- Every connection of the pool is made of a host with this name. -/
theorem RuntimeWorld.Assembles.connectionFor_host {world : RuntimeWorld} {hosts : List ConfigHost} {s : Assembly}
    (h : world.Assembles hosts s) {id : JsString} {made : MadeConnection} (hmade : s.connectionFor id = .ok made) :
    ∃ host ∈ hosts, host.hostname = id ∧ made = .host (host.options world.homedir) := by
  obtain rfl := h.seeded
  rw [Assembly.connectionFor] at hmade
  cases hentry : (world.seeded hosts).preloaded id with
  | none =>
    rw [hentry] at hmade
    cases hmade
  | some entry =>
    rw [hentry] at hmade
    obtain hstart | ⟨p, hp, -, hid, rfl⟩ := preloaded_seeded hentry
    · cases hstart
    · refine ⟨p.1, RuntimeWorld.mem_turns_host hp, hid, ?_⟩
      rw [← createConnection_host]
      exact (Except.ok.inj hmade).symm

/-! ### A runtime -/

def swarmHost : ConfigHost where
  hostname := js "swarm-1"
  platform := .dockerSwarmManager
  mcpEndpoint := some (js "https://swarm-1/mcp")
  sshFallback := ⟨js "10.0.0.5", 22, js "ops", ⟨js "ssh/swarm-1", js "private_key"⟩⟩

def towerHost : ConfigHost where
  hostname := js "tower"
  platform := .unraid
  mcpEndpoint := none
  sshFallback := ⟨js "10.0.0.9", 2222, js "root", ⟨js "ssh/tower", js "private_key"⟩⟩

def sampleHosts : List ConfigHost := [swarmHost, towerHost]

def sampleRuntimeWorld : RuntimeWorld where
  loaded := .ok sampleHosts
  homedir := js "/home/ops"
  pinged := .ok ()
  keysDirMade := .ok ()
  disk _ := none
  turn i ref := ⟨.ok ⟨[i.toUInt8], js "sha256:0", ref⟩, .written⟩

def sampleAssembly : Assembly := sampleRuntimeWorld.seeded sampleHosts

/-- The connection that the pool is given for an id runs `ssh` as it is declared for a host of this name. -/
theorem ssh_runs_declared (world : RuntimeWorld) (hosts : List ConfigHost) (s : Assembly)
    (h : world.Assembles hosts s) (id : JsString) (made : MadeConnection) (hmade : s.connectionFor id = .ok made) :
    ∃ host ∈ hosts, host.hostname = id ∧ ∃ opts, made = .host opts ∧ host.SshRuns world.homedir opts := by
  obtain ⟨host, hhost, hid, rfl⟩ := h.connectionFor_host hmade
  refine ⟨host, hhost, hid, host.options world.homedir, rfl, ?_⟩
  intro calls hcalls call commandLine hrun
  exact hcalls.kept.shared.worded call commandLine hrun

theorem ssh_runs_declared_tower : ∃ host ∈ sampleHosts, host.hostname = js "tower" ∧
    ∃ opts, MadeConnection.host (towerHost.options (js "/home/ops")) = .host opts ∧
      host.SshRuns (js "/home/ops") opts :=
  ssh_runs_declared sampleRuntimeWorld sampleHosts sampleAssembly ⟨rfl, rfl⟩ (js "tower") _
    (by rw [← createConnection_host]; rfl)

/-- While the runtime is there, the file of a host that has been seeded holds the key that has been resolved for it.
Once it has been shut down, the files that can be removed are gone; and what is not the key file of a host is as it
has been before, all the time. -/
structure KeyFilesOwn (world : RuntimeWorld) (hosts : List ConfigHost) (s : Assembly) (removes : JsString → Bool) :
    Prop where
  held : ∀ p ∈ world.turns hosts, ∀ key, p.2.key? = some key → s.disk (p.1.keyPath world.homedir) = some key
  gone : ∀ p ∈ world.turns hosts, p.2.key?.isSome = true → removes (p.1.keyPath world.homedir) = true →
    s.shutdown removes (p.1.keyPath world.homedir) = none
  others : ∀ path, (∀ host ∈ hosts, path ≠ host.keyPath world.homedir) →
    s.disk path = world.disk path ∧ s.shutdown removes path = world.disk path

/-- When the hostnames differ and have no slash, each host has a key file of its own. -/
theorem key_files_own (world : RuntimeWorld) (hosts : List ConfigHost) (s : Assembly)
    (h : world.Assembles hosts s) (hnames : HostnamesDiffer hosts) (removes : JsString → Bool) :
    KeyFilesOwn world hosts s removes := by
  obtain rfl := h.seeded
  have hfiles : ((world.turns hosts).map fun p => p.1.keyPath world.homedir).Nodup := by
    have hmap := hnames.files world.homedir
    rw [← world.turns_hosts hosts, List.map_map] at hmap
    exact hmap
  constructor
  · intro p hp key hkey
    exact seedHosts_key hfiles hp hkey
  · intro p hp hkey hremoves
    exact if_pos ⟨mem_tempKeyPaths.mpr (.inr ⟨p, hp, hkey, rfl⟩), hremoves⟩
  · intro path hpath
    have hdisk : (world.seeded hosts).disk path = world.disk path :=
      seedHosts_disk fun p hp => hpath p.1 (RuntimeWorld.mem_turns_host hp)
    refine ⟨hdisk, (if_neg ?_).trans hdisk⟩
    rintro ⟨htemp, -⟩
    obtain hstart | ⟨p, hp, -, heq⟩ := mem_tempKeyPaths.mp htemp
    · cases hstart
    · exact hpath p.1 (RuntimeWorld.mem_turns_host hp) heq.symm

theorem sampleHosts_differ : HostnamesDiffer sampleHosts where
  nodup := by decide
  noSlash := by
    refine List.forall_mem_cons.mpr ⟨by decide, ?_⟩
    exact List.forall_mem_singleton.mpr (by decide)

theorem key_files_own_sample : KeyFilesOwn sampleRuntimeWorld sampleHosts sampleAssembly fun _ => true :=
  key_files_own sampleRuntimeWorld sampleHosts sampleAssembly ⟨rfl, rfl⟩ sampleHosts_differ fun _ => true

/-- No transport is opened, no process of `ssh` is started and no command is sent, ever; no `connect` succeeds and
no `exec` returns. -/
structure NeverReached (opts : ConnectionOptions) (s : HostCalls) : Prop where
  unopened : ∀ transport, .opened transport ∉ s.shared.trail
  noSsh : ∀ call commandLine, .sshRun call commandLine ∉ s.shared.trail
  noMcp : ∀ call toolName args, .mcpCall call toolName args ∉ s.shared.trail
  failing : ∀ (i : ℕ) (call : ConnectionCall), s.calls[i]? = some call →
    call ≠ .connected ∧ ∀ command result, call ≠ .execReturned command result

theorem guarded_opened {trail : List ConnectionMark} (h : CommandsGuarded trail) {mark : ConnectionMark}
    (hmark : mark ∈ trail) {transport : Transport} (huses : mark.uses = some transport) :
    .opened transport ∈ trail := by
  induction trail with
  | nil => cases hmark
  | cons first older ih =>
    obtain ⟨hfirst, holder⟩ := h
    rcases List.mem_cons.mp hmark with rfl | hmark
    · exact List.mem_cons_of_mem _ (hfirst transport huses).2
    · exact List.mem_cons_of_mem _ (ih holder hmark)

/-- With no client for the MCP server, and no other transport allowed, nothing is ever reached. -/
theorem neverReached_of_mcp {opts : ConnectionOptions} (hwired : opts.mcpWired = false)
    (hssh : ¬ opts.mayUse .ssh) {s : HostCalls} (h : ConnectionReached opts s) : NeverReached opts s := by
  obtain ⟨hlaw, hcalls⟩ := h.kept
  have hunopened : ∀ transport, .opened transport ∉ s.shared.trail := by
    intro transport hopened
    cases transport with
    | mcp =>
      have htrue := hlaw.wired hopened
      rw [hwired] at htrue
      cases htrue
    | ssh => exact hssh (hlaw.permitted _ hopened .ssh rfl)
  refine ⟨hunopened, fun call commandLine hrun => hssh (hlaw.permitted _ hrun .ssh rfl),
    fun call toolName args hsent => hunopened .mcp (guarded_opened hlaw.guarded hsent rfl), ?_⟩
  intro i call hcall
  obtain ⟨hdelivered, hconnects⟩ := hcalls i call hcall
  constructor
  · rintro rfl
    obtain ⟨transport, hopened⟩ := hconnects
    exact hunopened transport hopened
  · rintro command result rfl
    obtain ⟨transport, hsent⟩ := hdelivered
    have hmem : opts.sending i command transport ∈ s.shared.trail := by
      apply List.mem_of_mem_filter (p := fun mark => mark.call? = some i)
      change _ ∈ sentBy i s.shared.trail
      rw [hsent]
      exact List.mem_singleton_self _
    exact hunopened transport (guarded_opened hlaw.guarded hmem (sending_uses opts i command transport))

/-- A Swarm host with an endpoint of an MCP server is unreachable in the runtime: the pool is given no client for the
server, and its connection may use no other transport, so `ssh_fallback` serves for nothing. -/
theorem mcp_hosts_unreachable (world : RuntimeWorld) (hosts : List ConfigHost) (s : Assembly)
    (h : world.Assembles hosts s) (id : JsString) (hdeclared : ∀ host ∈ hosts, host.hostname = id →
      host.declaredEndpoint.isSome = true ∧ host.platform ≠ .unraid)
    (made : MadeConnection) (hmade : s.connectionFor id = .ok made) :
    ∃ opts, made = .host opts ∧ ∀ calls, ConnectionReached opts calls → NeverReached opts calls := by
  obtain ⟨host, hhost, hid, rfl⟩ := h.connectionFor_host hmade
  obtain ⟨hendpoint, hplatform⟩ := hdeclared host hhost hid
  have hprefer : (host.options world.homedir).preferTransport = some .mcp :=
    (if_neg hplatform).trans (if_pos hendpoint)
  have hclass : (host.options world.homedir).connectionClass ≠ .unraid := by
    rw [ConfigHost.options, if_neg hplatform]
    exact nofun
  have hssh : ¬ (host.options world.homedir).mayUse .ssh := fun hmay => hmay.elim hclass fun hne => hne hprefer
  exact ⟨host.options world.homedir, rfl, fun calls hcalls => neverReached_of_mcp rfl hssh hcalls⟩

theorem mcp_hosts_unreachable_swarm :
    ∃ opts, MadeConnection.host (swarmHost.options (js "/home/ops")) = .host opts ∧
      ∀ calls, ConnectionReached opts calls → NeverReached opts calls := by
  apply mcp_hosts_unreachable sampleRuntimeWorld sampleHosts sampleAssembly ⟨rfl, rfl⟩ (js "swarm-1")
  · intro host hhost hid
    obtain rfl | hhost := List.mem_cons.mp hhost
    · exact ⟨rfl, by decide⟩
    · obtain rfl := List.mem_singleton.mp hhost
      exact absurd hid (by decide)
  · rw [← createConnection_host]
    rfl

end Homelab
