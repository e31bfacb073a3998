import Homelab.AdminCommands
import Homelab.BackupEngine
import Homelab.Onlookers

/-! Connections to one host, over an MCP server or over `ssh`: the calls of `connect`, `exec` and
`disconnect` between their awaits. -/
namespace Homelab
open Js Automaton

/-! ### Errors -/

inductive MCPUnavailableReason
  | notInstalled
  | connectionRefused
  | authFailed
  | timeout
  | other

structure MCPUnavailableError where
  reason : MCPUnavailableReason
  message : JsString

inductive Transport
  | mcp
  | ssh
deriving DecidableEq

def Transport.text : Transport → JsString
  | .mcp => js "mcp"
  | .ssh => js "ssh"

/-- What a call rejects with: one of the classes of `errors.ts`, or an error that it lets through. -/
inductive TransportError
  | mcpUnavailable (e : MCPUnavailableError)
  | sshAuth (message : JsString) (mcpError : Option MCPUnavailableError)
  | timedOut (transport : Transport) (timeoutMs : ℕ)
  | thrown (message : JsString)

def TransportError.message : TransportError → JsString
  | .mcpUnavailable e => e.message
  | .sshAuth message _ => message
  | .timedOut transport timeoutMs =>
    transport.text ++ js " timed out after " ++ countText timeoutMs ++ js "ms"
  | .thrown message => message

def normalizeMcpError : TransportError → MCPUnavailableError
  | .mcpUnavailable e => e
  | e => ⟨.other, e.message⟩

/-- An `SSHAuthError` takes the failure of the MCP server with it. -/
def TransportError.attach (mcpError : Option MCPUnavailableError) : TransportError → TransportError
  | .sshAuth message carried => .sshAuth message (mcpError <|> carried)
  | e => e

/-! ### `SSHClient` -/

structure SSHCertCredentials where
  host : JsString
  port : Option ℕ
  username : JsString
  privateKeyPath : JsString
  certPath : JsString
  knownHostsPath : Option JsString
  sshBin : Option JsString

/-- What the runner makes of an `ssh` process; it rejects with a message. -/
structure SSHRun where
  stdout : JsString
  stderr : JsString
  exitCode : JsNumber
  timedOut : Bool

abbrev SSHOutcome := Except JsString SSHRun

def SSHCertCredentials.buildArgs (c : SSHCertCredentials) (remoteCommand : JsString) : List JsString :=
  [js "-p", countText (c.port.getD 22), js "-i", c.privateKeyPath] ++
    (if c.certPath ≠ [] then [js "-o", js "CertificateFile=" ++ c.certPath] else []) ++
    [js "-o", js "BatchMode=yes", js "-o", js "PasswordAuthentication=no", js "-o",
      js "PubkeyAuthentication=yes", js "-o", js "IdentitiesOnly=yes"] ++
    (match c.knownHostsPath with
    | some path => [js "-o", js "UserKnownHostsFile=" ++ path, js "-o", js "StrictHostKeyChecking=yes"]
    | none => [js "-o", js "StrictHostKeyChecking=no", js "-o", js "UserKnownHostsFile=/dev/null"]) ++
    [c.username ++ js "@" ++ c.host, js "--", remoteCommand]

/-- The file that is run, and its arguments -/
def SSHCertCredentials.commandLine (c : SSHCertCredentials) (remoteCommand : JsString) : List JsString :=
  c.sshBin.getD (js "ssh") :: c.buildArgs remoteCommand

def truncate (s : JsString) (max : ℕ) : JsString := if s.length ≤ max then s else s.take max ++ js "…"

def preflightTimeoutMs : ℕ := 10000

/-- `SSHClient.connect`, once `true` has been run on the host -/
def preflightResult : SSHOutcome → Except TransportError Unit
  | .error message => .error (.sshAuth (js "ssh preflight error: " ++ message) none)
  | .ok r =>
    if r.timedOut then .error (.timedOut .ssh preflightTimeoutMs)
    else if r.exitCode.strictEq (.ofNat 0) then .ok ()
    else .error (.sshAuth (js "ssh preflight failed (exit " ++ r.exitCode.toText ++ js "): " ++
      truncate r.stderr 400) none)

/-- `execCommand`, once the command has been run -/
def execCommandResult (timeoutMs : ℕ) (durationMs : ℤ) : SSHOutcome → Except TransportError ExecResult
  | .error message => .error (.thrown message)
  | .ok r =>
    if r.timedOut then .error (.timedOut .ssh timeoutMs)
    else .ok ⟨r.stdout, r.stderr, r.exitCode, .ofScaledInt durationMs 0⟩

/-! ### MCP -/

structure MCPCallResult where
  content : JsValue
  isError : Bool

/-- `MCPClient.call` rejects with any error. -/
abbrev MCPOutcome := Except TransportError MCPCallResult

def textField (key : JsString) (content : JsValue) : JsString :=
  match property key content with
  | .str s => s
  | _ => []

def normalizeMcpExecResult (r : MCPCallResult) (durationMs : ℤ) : ExecResult where
  stdout := textField (js "stdout") r.content
  stderr := textField (js "stderr") r.content
  exitCode :=
    match property (js "exitCode") r.content with
    | .num code => code
    | _ => .ofNat (if r.isError then 1 else 0)
  durationMs := .ofScaledInt durationMs 0

/-- What a `NullMCPClient` rejects every `connect` with -/
def nullClientError : MCPUnavailableError :=
  ⟨.notInstalled, js "no MCPClient implementation wired in (NullMCPClient default)"⟩

/-- What `withMCPTimeout` rejects with -/
def mcpTimeoutError (timeoutMs : ℕ) : MCPUnavailableError :=
  ⟨.timeout, js "MCP timed out after " ++ countText timeoutMs ++ js "ms"⟩

/-! ### Connections -/

/-- An `MCPOrSSHConnection` with the name of its MCP server, or an `UnraidConnection` -/
inductive ConnectionClass
  | mcpOrSsh (mcpServerName : JsString)
  | unraid
deriving DecidableEq

/-- `MCPOrSSHOptions`; `mcpWired` tells whether the MCP client is other than a `NullMCPClient`. -/
structure ConnectionOptions where
  connectionClass : ConnectionClass
  hostname : JsString
  sshUser : Option JsString
  sshPort : Option ℕ
  privateKeyPath : JsString
  certPath : JsString
  preferTransport : Option Transport
  mcpTimeoutMs : Option ℕ
  mcpWired : Bool

def ConnectionOptions.username (opts : ConnectionOptions) : JsString := opts.sshUser.getD (js "root")

def ConnectionOptions.creds (opts : ConnectionOptions) : SSHCertCredentials where
  host := opts.hostname
  port := opts.sshPort
  username := opts.username
  privateKeyPath := opts.privateKeyPath
  certPath := opts.certPath
  knownHostsPath := none
  sshBin := none

structure ConnectionCapabilities where
  transport : Transport
  serverName : Option JsString
  hostname : JsString
  user : Option JsString
  certFingerprint : Option JsString

def ConnectionOptions.mcpCapabilities (opts : ConnectionOptions) (serverName : JsString) :
    ConnectionCapabilities :=
  ⟨.mcp, some serverName, opts.hostname, opts.sshUser, none⟩

def ConnectionOptions.sshCapabilities (opts : ConnectionOptions) (certFingerprint : Option JsString) :
    ConnectionCapabilities :=
  ⟨.ssh, none, opts.hostname, some opts.username, certFingerprint⟩

/-- A call, and what it waits for or has come to. A `connect` over `ssh` waits for `true` to be run, then for
the continuation of its `await`, then for the certificate. -/
inductive ConnectionCall
  | connectingMcp
  | preflight (mcpError : Option MCPUnavailableError)
  | authenticated
  | fingerprinting
  | connected
  | connectFailed (e : TransportError)
  | execMcp (command : JsString) (timeoutMs : ℕ) (start : ℤ)
  | execSsh (command : JsString) (timeoutMs : ℕ) (start : ℤ)
  | execReturned (command : JsString) (result : ExecResult)
  | execFailed (command : JsString) (e : TransportError)
  | closingMcp
  | closingSsh
  | closed

/-- What goes out to the host, with the `exec` that has sent it, and the times at which the connection
becomes connected and disconnected. -/
inductive ConnectionMark
  | mcpConnect (serverName hostname : JsString)
  | mcpCall (call : ℕ) (toolName : JsString) (args : Fields)
  | mcpDisconnect
  | sshRun (call : Option ℕ) (commandLine : List JsString)
  | opened (transport : Transport)
  | closed

/-- The connection, the fields of its `SSHClient`, and what has happened, the last first. -/
structure HostConnection where
  connected : Bool
  capabilities : Option ConnectionCapabilities
  lastUsedAt : ℤ
  sshCreds : Option SSHCertCredentials
  sshConnected : Bool
  trail : List ConnectionMark

inductive ConnectionRequest
  | connect (now : ℤ)
  | exec (command : JsString) (timeoutMs : Option ℕ) (now : ℤ)
  | disconnect

/-- What a call waits for. `withMCPTimeout` settles when the client has answered the `connect`, or the timer
has; a disconnect of a transport settles either way. -/
inductive ConnectionAnswer
  | mcpConnected (outcome : Except TransportError Unit)
  | mcpConnectTimedOut
  | preflightRun (outcome : SSHOutcome)
  | resumed
  | fingerprintRead (certFingerprint : Option JsString)
  | mcpCalled (outcome : MCPOutcome) (now : ℤ)
  | mcpCallTimedOut
  | commandRun (outcome : SSHOutcome) (now : ℤ)
  | transportClosed

/-- What the connection and the call have become -/
abbrev ConnectionTurn := HostConnection × ConnectionCall

namespace HostConnection

variable (opts : ConnectionOptions) (s : HostConnection)

def fresh : HostConnection := ⟨false, none, 0, none, false, []⟩

def used (now : ℤ) : HostConnection := { s with lastUsedAt := now }

def record (mark : ConnectionMark) : HostConnection := { s with trail := mark :: s.trail }

def opens (transport : Transport) : HostConnection :=
  { s with connected := true, trail := .opened transport :: s.trail }

def closes : HostConnection := { s with connected := false, trail := .closed :: s.trail }

/-- `fallbackSSH`, and the `connect` of an `UnraidConnection` -/
def fallbackSSH (mcpError : Option MCPUnavailableError) : ConnectionTurn :=
  let s := { s with sshCreds := some opts.creds }
  (s.record (.sshRun none (opts.creds.commandLine (js "true"))), .preflight mcpError)

/-- `connect` -/
def connect (now : ℤ) : ConnectionTurn :=
  let s := s.used now
  match opts.connectionClass with
  | .unraid => s.fallbackSSH opts none
  | .mcpOrSsh mcpServerName =>
    if opts.preferTransport = some .ssh then s.fallbackSSH opts none
    else (s.record (.mcpConnect mcpServerName opts.hostname), .connectingMcp)

/-- The `catch` around `tryMCP` -/
def mcpFailed (e : MCPUnavailableError) : ConnectionTurn :=
  if opts.preferTransport = some .mcp then (s, .connectFailed (.mcpUnavailable e))
  else s.fallbackSSH opts (some e)

/-- `tryMCP`, once `withMCPTimeout` has settled -/
def mcpSettled (outcome : Except TransportError Unit) : ConnectionTurn :=
  match outcome with
  | .error e => s.mcpFailed opts (normalizeMcpError e)
  | .ok () =>
    match opts.connectionClass with
    | .mcpOrSsh mcpServerName =>
      ({ s.opens .mcp with capabilities := some (opts.mcpCapabilities mcpServerName) }, .connected)
    | .unraid => (s, .connected)

def preflightSettled (mcpError : Option MCPUnavailableError) (outcome : SSHOutcome) : ConnectionTurn :=
  match preflightResult outcome with
  | .ok () => ({ s with sshConnected := true }, .authenticated)
  | .error e => (s, .connectFailed (e.attach mcpError))

/-- An `MCPOrSSHConnection` is connected before it has read the certificate; only then are its capabilities
replaced. -/
def resume : ConnectionTurn :=
  match opts.connectionClass with
  | .mcpOrSsh _ => (s.opens .ssh, .fingerprinting)
  | .unraid => ({ s.opens .ssh with capabilities := some (opts.sshCapabilities none) }, .connected)

def fingerprinted (certFingerprint : Option JsString) : ConnectionTurn :=
  ({ s with capabilities := some (opts.sshCapabilities certFingerprint) }, .connected)

/-- The transport of an `exec`; none when the connection does not take one. -/
def activeTransport : Option Transport :=
  if s.connected then
    match opts.connectionClass with
    | .mcpOrSsh _ => s.capabilities.map ConnectionCapabilities.transport
    | .unraid => some .ssh
  else none

def defaultExecTimeoutMs : ℕ := 60000

/-- `exec`, as the call with this number -/
def exec (call : ℕ) (command : JsString) (timeoutMs : Option ℕ) (now : ℤ) : ConnectionTurn :=
  match s.activeTransport opts with
  | none => (s, .execFailed command (.sshAuth (js "exec called before connect()") none))
  | some transport =>
    let s := s.used now
    let timeoutMs := timeoutMs.getD defaultExecTimeoutMs
    match transport with
    | .mcp =>
      (s.record (.mcpCall call (js "shell_exec") [(js "command", .str command)]),
        .execMcp command timeoutMs now)
    | .ssh =>
      -- `execCommand` makes its own test
      match s.sshCreds, s.sshConnected with
      | some creds, true =>
        (s.record (.sshRun (some call) (creds.commandLine command)), .execSsh command timeoutMs now)
      | _, _ =>
        (s, .execFailed command (.sshAuth (js "SSHClient.execCommand called before connect()") none))

/-- `disconnect`, from the test for `ssh` on -/
def closeSsh : ConnectionTurn :=
  if opts.connectionClass = .unraid ∨ s.capabilities.map ConnectionCapabilities.transport = some .ssh then
    ({ s with sshConnected := false }, .closingSsh)
  else (s.closes, .closed)

/-- `disconnect` -/
def disconnect : ConnectionTurn :=
  if opts.connectionClass ≠ .unraid ∧ s.capabilities.map ConnectionCapabilities.transport = some .mcp then
    (s.record .mcpDisconnect, .closingMcp)
  else s.closeSsh opts

def execCall (command : JsString) : Except TransportError ExecResult → ConnectionCall
  | .ok result => .execReturned command result
  | .error e => .execFailed command e

/-- What the answer makes of a call; none when it does not wait for one of its kind -/
def settle : ConnectionCall → ConnectionAnswer → Option (ConnectionTurn)
  | .connectingMcp, .mcpConnected outcome => some (s.mcpSettled opts outcome)
  | .connectingMcp, .mcpConnectTimedOut =>
    some (s.mcpFailed opts (mcpTimeoutError (opts.mcpTimeoutMs.getD 5000)))
  | .preflight mcpError, .preflightRun outcome => some (s.preflightSettled mcpError outcome)
  | .authenticated, .resumed => some (s.resume opts)
  | .fingerprinting, .fingerprintRead certFingerprint => some (s.fingerprinted opts certFingerprint)
  | .execMcp command _ start, .mcpCalled outcome now =>
    some (s, execCall command (outcome.map fun r => normalizeMcpExecResult r (now-start)))
  | .execMcp command timeoutMs _, .mcpCallTimedOut => some (s, .execFailed command (.timedOut .mcp timeoutMs))
  | .execSsh command timeoutMs start, .commandRun outcome now =>
    some (s, execCall command (execCommandResult timeoutMs (now-start) outcome))
  | .closingMcp, .transportClosed => some (s.closeSsh opts)
  | .closingSsh, .transportClosed => some (s.closes, .closed)
  | _, _ => none

/-- What a call does until its first `await` -/
def start (call : ℕ) : ConnectionRequest → ConnectionTurn
  | .connect now => s.connect opts now
  | .exec command timeoutMs now => s.exec opts call command timeoutMs now
  | .disconnect => s.disconnect opts

end HostConnection

/-- A `NullMCPClient` answers at once, and always so. -/
def ConnectionOptions.permits (opts : ConnectionOptions) : ConnectionAnswer → Prop
  | .mcpConnected outcome => opts.mcpWired = false → outcome = .error (.mcpUnavailable nullClientError)
  | .mcpConnectTimedOut => opts.mcpWired = true
  | _ => True

/-- A connection, and the calls on it -/
abbrev HostCalls := Calls HostConnection ConnectionCall

def connectionCalls (opts : ConnectionOptions) :
    Routine HostConnection ConnectionRequest ConnectionCall ConnectionAnswer where
  start call request s := s.start opts call request
  may := opts.permits
  settle call answer s := s.settle opts call answer

/-! ### What the calls keep -/

/-- The transport over which an `exec` has sent its command -/
def ConnectionMark.uses : ConnectionMark → Option Transport
  | .mcpCall _ _ _ => some .mcp
  | .sshRun (some _) _ => some .ssh
  | _ => none

/-- The transport that it goes out to, or that has been opened -/
def ConnectionMark.transport? : ConnectionMark → Option Transport
  | .mcpConnect _ _ => some .mcp
  | .mcpCall _ _ _ => some .mcp
  | .mcpDisconnect => some .mcp
  | .sshRun _ _ => some .ssh
  | .opened transport => some transport
  | .closed => none

def ConnectionMark.call? : ConnectionMark → Option ℕ
  | .mcpCall call _ _ => some call
  | .sshRun call _ => call
  | _ => none

/-- A transport has been opened, and the connection has not been closed since. -/
def isOpen : List ConnectionMark → Bool
  | [] => false
  | .opened _ :: _ => true
  | .closed :: _ => false
  | _ :: older => isOpen older

/-- No command is sent but over a transport that has been opened, on a connection that is open. -/
def CommandsGuarded : List ConnectionMark → Prop
  | [] => True
  | mark :: older =>
    (∀ transport, mark.uses = some transport → isOpen older = true ∧ .opened transport ∈ older) ∧
      CommandsGuarded older

def sentBy (call : ℕ) (trail : List ConnectionMark) : List ConnectionMark :=
  trail.filter fun mark => mark.call? = some call

/-- The command, as it goes out over the transport -/
def ConnectionOptions.sending (opts : ConnectionOptions) (call : ℕ) (command : JsString) :
    Transport → ConnectionMark
  | .mcp => .mcpCall call (js "shell_exec") [(js "command", .str command)]
  | .ssh => .sshRun (some call) (opts.creds.commandLine command)

/-- What the call with this number has sent: an `exec` its command, once, unless it has failed before. -/
def ConnectionCall.Delivered (opts : ConnectionOptions) (i : ℕ) (sent : List ConnectionMark) :
    ConnectionCall → Prop
  | .execMcp command _ _ => sent = [opts.sending i command .mcp]
  | .execSsh command _ _ => sent = [opts.sending i command .ssh]
  | .execReturned command _ => ∃ transport, sent = [opts.sending i command transport]
  | .execFailed command _ => sent = [] ∨ ∃ transport, sent = [opts.sending i command transport]
  | _ => sent = []

/-- What has gone out for a call are the words of its own command, at most once and over one transport; exactly
once, when it has returned; and no command is sent for no call. -/
structure CommandsDelivered (opts : ConnectionOptions) (s : HostCalls) : Prop where
  own : ∀ (i : ℕ) (call : ConnectionCall), s.calls[i]? = some call → call.Delivered opts i (sentBy i s.shared.trail)
  made : ∀ mark ∈ s.shared.trail, ∀ i, mark.call? = some i → i < s.calls.length

/-- `preferTransport` -/
def ConnectionOptions.mayUse (opts : ConnectionOptions) : Transport → Prop
  | .mcp => opts.connectionClass ≠ .unraid ∧ opts.preferTransport ≠ some .ssh
  | .ssh => opts.connectionClass = .unraid ∨ opts.preferTransport ≠ some .mcp

/-- What a `connect` may reject with: the failure of the MCP server, when there is nothing to fall back to;
else that of `ssh`, which carries the one of the MCP server when that has been tried. -/
def ConnectionOptions.Rejects (opts : ConnectionOptions) : TransportError → Prop
  | .mcpUnavailable _ => ¬ opts.mayUse .ssh
  | .sshAuth _ mcpError => opts.mayUse .ssh ∧ (opts.mayUse .mcp → mcpError.isSome = true)
  | .timedOut transport _ => opts.mayUse .ssh ∧ transport = .ssh
  | .thrown _ => False

/-- No transport is used that `preferTransport` rules out, and a `connect` rejects only with what it may. -/
structure TransportsPreferred (opts : ConnectionOptions) (s : HostCalls) : Prop where
  used : ∀ mark ∈ s.shared.trail, ∀ transport, mark.transport? = some transport → opts.mayUse transport
  failed : ∀ (i : ℕ) (e : TransportError), s.calls[i]? = some (.connectFailed e) → opts.Rejects e

/-- What is known of a `connect` at each of its waits -/
def ConnectionCall.Connects (opts : ConnectionOptions) (trail : List ConnectionMark) : ConnectionCall → Prop
  | .connectingMcp => opts.mayUse .mcp
  | .preflight mcpError => opts.mayUse .ssh ∧ (opts.mayUse .mcp → mcpError.isSome = true)
  | .authenticated => opts.mayUse .ssh
  | .fingerprinting => .opened .ssh ∈ trail
  | .connected => ∃ transport, .opened transport ∈ trail
  | .connectFailed e => opts.Rejects e
  | _ => True

structure ConnectionLaw (opts : ConnectionOptions) (n : ℕ) (s : HostConnection) : Prop where
  flag : s.connected = isOpen s.trail
  capable : ∀ c, s.capabilities = some c → .opened c.transport ∈ s.trail
  creds : ∀ c, s.sshCreds = some c → c = opts.creds
  guarded : CommandsGuarded s.trail
  numbered : ∀ mark ∈ s.trail, ∀ i, mark.call? = some i → i < n
  permitted : ∀ mark ∈ s.trail, ∀ transport, mark.transport? = some transport → opts.mayUse transport
  wired : .opened .mcp ∈ s.trail → opts.mcpWired = true
  worded : ∀ call commandLine, .sshRun call commandLine ∈ s.trail →
    ∃ command, commandLine = opts.creds.commandLine command

structure CallLaw (opts : ConnectionOptions) (i : ℕ) (call : ConnectionCall) (s : HostConnection) : Prop where
  delivered : call.Delivered opts i (sentBy i s.trail)
  connects : call.Connects opts s.trail

/-- What a call adds to the trail are commands of its own. -/
def AddsOwn (i : ℕ) (s s' : HostConnection) : Prop :=
  ∃ added, s'.trail = added ++ s.trail ∧ ∀ mark ∈ added, ∀ j, mark.call? = some j → j = i

/-- What a call has come to keeps the laws. -/
structure Advances (opts : ConnectionOptions) (n i : ℕ) (s : HostConnection) (gone : ConnectionTurn) : Prop where
  law : ConnectionLaw opts n gone.1
  adds : AddsOwn i s gone.1
  call : CallLaw opts i gone.2 gone.1

variable {opts : ConnectionOptions} {n i j : ℕ} {s s' : HostConnection} {mark : ConnectionMark}
  {call : ConnectionCall}

theorem addsOwn_same (h : s'.trail = s.trail) : AddsOwn i s s' := ⟨[], h, nofun⟩

theorem addsOwn_one (h : s'.trail = mark :: s.trail) (hcall : ∀ j, mark.call? = some j → j = i) :
    AddsOwn i s s' := by
  refine ⟨[mark], h, ?_⟩
  intro added hadded
  rwa [List.mem_singleton.mp hadded]

theorem sentBy_added (hij : i ≠ j) (h : AddsOwn i s s') : sentBy j s'.trail = sentBy j s.trail := by
  obtain ⟨added, htrail, hown⟩ := h
  have hnone : added.filter (fun mark => mark.call? = some j) = [] := by
    apply List.filter_eq_nil_iff.mpr
    intro mark hmark
    have hne : mark.call? ≠ some j := fun hj => hij (hown mark hmark j hj).symm
    simpa using hne
  rw [sentBy, htrail, List.filter_append, hnone, List.nil_append, sentBy]

theorem sentBy_cons_other (h : mark.call? = none) (trail : List ConnectionMark) :
    sentBy i (mark :: trail) = sentBy i trail := by
  rw [sentBy, List.filter_cons_of_neg, sentBy]
  rw [h]
  simp

/-- The other calls rely on what is added to the trail. -/
theorem callLaw_relies (hij : i ≠ j) (h : AddsOwn i s s') (hcall : CallLaw opts j call s) :
    CallLaw opts j call s' := by
  obtain ⟨hdelivered, hconnects⟩ := hcall
  constructor
  · rwa [sentBy_added hij h]
  · obtain ⟨added, htrail, -⟩ := h
    cases call with
    | fingerprinting =>
      change _ ∈ s'.trail
      rw [htrail]
      exact List.mem_append_right added hconnects
    | connected =>
      obtain ⟨transport, hopened⟩ := hconnects
      refine ⟨transport, ?_⟩
      rw [htrail]
      exact List.mem_append_right added hopened
    | _ => exact hconnects

theorem ConnectionLaw.weaken (h : ConnectionLaw opts n s) : ConnectionLaw opts (n+1) s :=
  { h with numbered := fun mark hmark i hi => Nat.lt_succ_of_lt (h.numbered mark hmark i hi) }

/-- A call that has not been made has sent nothing. -/
theorem ConnectionLaw.unsent (h : ConnectionLaw opts n s) : sentBy n s.trail = [] := by
  apply List.filter_eq_nil_iff.mpr
  intro mark hmark
  have hne : mark.call? ≠ some n := fun hn => Nat.lt_irrefl n (h.numbered mark hmark n hn)
  simpa using hne

/-- A transport that may be used and has been answered for becomes the one in use, or the connection is
closed: the mark is about no call. -/
theorem ConnectionLaw.flagged (h : ConnectionLaw opts n s) (mark : ConnectionMark) (s' : HostConnection)
    (hcall : mark.call? = none) (huses : mark.uses = none) (hflag : s'.connected = isOpen (mark :: s.trail))
    (htrail : s'.trail = mark :: s.trail) (hcaps : s'.capabilities = s.capabilities)
    (hcreds : ∀ c, s'.sshCreds = some c → c = opts.creds)
    (hmay : ∀ transport, mark.transport? = some transport → opts.mayUse transport)
    (hwired : mark = .opened .mcp → opts.mcpWired = true)
    (hworded : ∀ call commandLine, mark = .sshRun call commandLine →
      ∃ command, commandLine = opts.creds.commandLine command) : ConnectionLaw opts n s' where
  flag := by rw [hflag, htrail]
  capable c hc := by
    rw [htrail]
    rw [hcaps] at hc
    exact List.mem_cons_of_mem _ (h.capable c hc)
  creds := hcreds
  guarded := by
    rw [htrail]
    refine ⟨?_, h.guarded⟩
    intro transport htransport
    rw [huses] at htransport
    cases htransport
  numbered := by
    rw [htrail]
    refine List.forall_mem_cons.mpr ⟨?_, h.numbered⟩
    intro i hi
    rw [hcall] at hi
    cases hi
  permitted := by
    rw [htrail]
    exact List.forall_mem_cons.mpr ⟨hmay, h.permitted⟩
  wired hmem := by
    rw [htrail] at hmem
    rcases List.mem_cons.mp hmem with heq | hmem
    · exact hwired heq.symm
    · exact h.wired hmem
  worded call commandLine hmem := by
    rw [htrail] at hmem
    rcases List.mem_cons.mp hmem with heq | hmem
    · exact hworded call commandLine heq.symm
    · exact h.worded call commandLine hmem

theorem sending_call (opts : ConnectionOptions) (i : ℕ) (command : JsString) (transport : Transport) :
    (opts.sending i command transport).call? = some i := by cases transport <;> rfl

theorem sending_uses (opts : ConnectionOptions) (i : ℕ) (command : JsString) (transport : Transport) :
    (opts.sending i command transport).uses = some transport := by cases transport <;> rfl

theorem sending_transport (opts : ConnectionOptions) (i : ℕ) (command : JsString) (transport : Transport) :
    (opts.sending i command transport).transport? = some transport := by cases transport <;> rfl

/-- A command goes out over a transport that has been opened. -/
theorem ConnectionLaw.sends (h : ConnectionLaw opts n s) (hi : i < n) {transport : Transport}
    (command : JsString) (hopen : s.connected = true) (hopened : .opened transport ∈ s.trail) :
    ConnectionLaw opts n (s.record (opts.sending i command transport)) where
  flag := by cases transport <;> exact h.flag
  capable c hc := List.mem_cons_of_mem _ (h.capable c hc)
  creds := h.creds
  guarded := by
    refine ⟨?_, h.guarded⟩
    intro used hused
    rw [sending_uses] at hused
    rw [← h.flag, ← Option.some.inj hused]
    exact ⟨hopen, hopened⟩
  numbered := by
    refine List.forall_mem_cons.mpr ⟨?_, h.numbered⟩
    intro j hj
    rw [sending_call] at hj
    rwa [← Option.some.inj hj]
  permitted := by
    refine List.forall_mem_cons.mpr ⟨?_, h.permitted⟩
    intro used hused
    rw [sending_transport] at hused
    exact h.permitted _ hopened used hused
  wired hmem := by
    rcases List.mem_cons.mp hmem with heq | hmem
    · cases transport <;> cases heq
    · exact h.wired hmem
  worded call commandLine hmem := by
    rcases List.mem_cons.mp hmem with heq | hmem
    · cases transport with
      | mcp => cases heq
      | ssh => exact ⟨command, (ConnectionMark.sshRun.inj heq).2⟩
    · exact h.worded call commandLine hmem

theorem sentBy_sending (opts : ConnectionOptions) (command : JsString) (transport : Transport)
    (h : sentBy i s.trail = []) :
    sentBy i (s.record (opts.sending i command transport)).trail = [opts.sending i command transport] := by
  change (opts.sending i command transport :: s.trail).filter _ = _
  rw [List.filter_cons_of_pos (by simp [sending_call])]
  exact congrArg _ h

/-- What leaves the trail alone keeps the law, when the capabilities are of a transport that has been opened. -/
theorem ConnectionLaw.same (h : ConnectionLaw opts n s) (htrail : s'.trail = s.trail)
    (hconnected : s'.connected = s.connected)
    (hcaps : ∀ c, s'.capabilities = some c → .opened c.transport ∈ s.trail)
    (hcreds : s'.sshCreds = s.sshCreds) : ConnectionLaw opts n s' where
  flag := by rw [hconnected, htrail, h.flag]
  capable c hc := htrail ▸ hcaps c hc
  creds c hc := h.creds c (hcreds ▸ hc)
  guarded := htrail ▸ h.guarded
  numbered := htrail ▸ h.numbered
  permitted := htrail ▸ h.permitted
  wired := htrail ▸ h.wired
  worded := htrail ▸ h.worded

theorem ConnectionLaw.opens (h : ConnectionLaw opts n s) {transport : Transport} (hmay : opts.mayUse transport)
    (hwired : transport = .mcp → opts.mcpWired = true) : ConnectionLaw opts n (s.opens transport) :=
  h.flagged (.opened transport) (s.opens transport) rfl rfl rfl rfl rfl h.creds
    (fun _ ht => Option.some.inj ht ▸ hmay) (fun hmark => hwired (ConnectionMark.opened.inj hmark)) nofun

/-- The capabilities are those of a transport that has been opened. -/
theorem ConnectionLaw.capabilities (h : ConnectionLaw opts n s) (c : ConnectionCapabilities)
    (hopened : .opened c.transport ∈ s.trail) : ConnectionLaw opts n { s with capabilities := some c } :=
  h.same rfl rfl (fun _ hc => Option.some.inj hc ▸ hopened) rfl

/-- The transport of an `exec` has been opened, and the connection is open. -/
theorem opened_of_activeTransport (h : ConnectionLaw opts n s) {transport : Transport}
    (hactive : s.activeTransport opts = some transport) :
    s.connected = true ∧ .opened transport ∈ s.trail := by
  rw [HostConnection.activeTransport] at hactive
  split_ifs at hactive with hconnected
  refine ⟨hconnected, ?_⟩
  cases hclass : opts.connectionClass with
  | mcpOrSsh mcpServerName =>
    rw [hclass] at hactive
    obtain ⟨c, hc, rfl⟩ := Option.map_eq_some_iff.mp hactive
    exact h.capable c hc
  | unraid =>
    rw [hclass] at hactive
    rw [← Option.some.inj hactive]
    -- some transport has been opened, and an `UnraidConnection` opens no other
    have hopen : isOpen s.trail = true := h.flag ▸ hconnected
    have hsome (trail : List ConnectionMark) (hopen : isOpen trail = true) : ∃ t, .opened t ∈ trail := by
      induction trail with
      | nil => cases hopen
      | cons mark older ih =>
        cases mark with
        | opened t => exact ⟨t, List.mem_cons_self⟩
        | closed => cases hopen
        | _ =>
          obtain ⟨t, ht⟩ := ih hopen
          exact ⟨t, List.mem_cons_of_mem _ ht⟩
    obtain ⟨t, ht⟩ := hsome s.trail hopen
    cases t with
    | ssh => exact ht
    | mcp => exact absurd hclass (h.permitted _ ht .mcp rfl).1

theorem rejects_attach {mcpError : Option MCPUnavailableError} (hssh : opts.mayUse .ssh)
    (hmcp : opts.mayUse .mcp → mcpError.isSome = true) {outcome : SSHOutcome} {e : TransportError}
    (h : preflightResult outcome = .error e) : opts.Rejects (e.attach mcpError) := by
  have hcarried (message : JsString) : opts.Rejects ((TransportError.sshAuth message none).attach mcpError) := by
    refine ⟨hssh, fun hmay => ?_⟩
    rw [Option.orElse_eq_orElse, Option.orElse_eq_or, Option.or_none]
    exact hmcp hmay
  cases outcome with
  | error message =>
    rw [← Except.error.inj h]
    exact hcarried _
  | ok r =>
    rw [preflightResult] at h
    split_ifs at h
    · rw [← Except.error.inj h]
      exact ⟨hssh, rfl⟩
    · rw [← Except.error.inj h]
      exact hcarried _

section Calls

variable (h : ConnectionLaw opts n s) (hsent : sentBy i s.trail = [])
include h hsent

/-! ### `connect` -/

theorem advances_fallbackSSH {mcpError : Option MCPUnavailableError} (hssh : opts.mayUse .ssh)
    (hmcp : opts.mayUse .mcp → mcpError.isSome = true) :
    Advances opts n i s (s.fallbackSSH opts mcpError) where
  law := by
    apply h.flagged (.sshRun none (opts.creds.commandLine (js "true"))) (s.fallbackSSH opts mcpError).1 rfl rfl
      h.flag rfl rfl
    · exact fun c hc => (Option.some.inj hc).symm
    · exact fun transport ht => Option.some.inj ht ▸ hssh
    · exact nofun
    · exact fun call commandLine hmark => ⟨js "true", (ConnectionMark.sshRun.inj hmark).2.symm⟩
  adds := addsOwn_one rfl nofun
  call := ⟨(sentBy_cons_other rfl s.trail).trans hsent, hssh, hmcp⟩

theorem advances_connect (now : ℤ) : Advances opts n i s (s.connect opts now) := by
  have hused : ConnectionLaw opts n (s.used now) := h.same rfl rfl h.capable rfl
  have hfalls (hssh : opts.mayUse .ssh) (hnever : ¬ opts.mayUse .mcp) :
      Advances opts n i s ((s.used now).fallbackSSH opts none) := by
    obtain ⟨hlaw, hadds, hcall⟩ := advances_fallbackSSH hused hsent hssh fun hmay => absurd hmay hnever
    exact ⟨hlaw, hadds, hcall⟩
  rw [HostConnection.connect]
  cases hclass : opts.connectionClass with
  | unraid => exact hfalls (.inl hclass) fun hmay => hmay.1 hclass
  | mcpOrSsh mcpServerName =>
    dsimp only
    by_cases hprefer : opts.preferTransport = some .ssh
    · have hssh : opts.preferTransport ≠ some .mcp := by rw [hprefer]; decide
      rw [if_pos hprefer]
      exact hfalls (.inr hssh) fun hmay => hmay.2 hprefer
    · have hmay : opts.mayUse .mcp := ⟨by rw [hclass]; nofun, hprefer⟩
      rw [if_neg hprefer]
      refine ⟨?_, addsOwn_one rfl nofun, (sentBy_cons_other rfl s.trail).trans hsent, hmay⟩
      apply hused.flagged (.mcpConnect mcpServerName opts.hostname)
        ((s.used now).record (.mcpConnect mcpServerName opts.hostname)) rfl rfl h.flag rfl rfl h.creds
      · exact fun transport ht => Option.some.inj ht ▸ hmay
      · exact nofun
      · exact nofun

theorem advances_mcpFailed
    (hmay : opts.mayUse .mcp) (e : MCPUnavailableError) : Advances opts n i s (s.mcpFailed opts e) := by
  rw [HostConnection.mcpFailed]
  by_cases hprefer : opts.preferTransport = some .mcp
  · rw [if_pos hprefer]
    have hnever : ¬ opts.mayUse .ssh := fun hssh => hssh.elim hmay.1 fun hne => hne hprefer
    exact ⟨h, addsOwn_same rfl, hsent, hnever⟩
  · rw [if_neg hprefer]
    exact advances_fallbackSSH h hsent (.inr hprefer) fun _ => rfl

theorem advances_mcpSettled (hmay : opts.mayUse .mcp) {outcome : Except TransportError Unit}
    (hpermits : opts.permits (.mcpConnected outcome)) : Advances opts n i s (s.mcpSettled opts outcome) := by
  cases outcome with
  | error e => exact advances_mcpFailed h hsent hmay (normalizeMcpError e)
  | ok _ =>
    rw [HostConnection.mcpSettled]
    cases hclass : opts.connectionClass with
    | unraid => exact absurd hclass hmay.1
    | mcpOrSsh mcpServerName =>
      -- a `NullMCPClient` would have rejected
      have hwired : opts.mcpWired = true := by
        by_contra hnull
        cases hpermits (Bool.eq_false_iff.mpr hnull)
      have hopens : ConnectionLaw opts n (s.opens .mcp) := h.opens hmay fun _ => hwired
      constructor
      · exact hopens.capabilities (opts.mcpCapabilities mcpServerName) List.mem_cons_self
      · exact addsOwn_one rfl nofun
      · exact ⟨(sentBy_cons_other rfl s.trail).trans hsent, .mcp, List.mem_cons_self⟩

theorem advances_preflightSettled {mcpError : Option MCPUnavailableError} (hssh : opts.mayUse .ssh)
    (hmcp : opts.mayUse .mcp → mcpError.isSome = true) (outcome : SSHOutcome) :
    Advances opts n i s (s.preflightSettled mcpError outcome) := by
  rw [HostConnection.preflightSettled]
  cases hresult : preflightResult outcome with
  | ok _ => exact ⟨h.same rfl rfl h.capable rfl, addsOwn_same rfl, hsent, hssh⟩
  | error e => exact ⟨h, addsOwn_same rfl, hsent, rejects_attach hssh hmcp hresult⟩

theorem advances_resume (hssh : opts.mayUse .ssh) : Advances opts n i s (s.resume opts) := by
  have hopens : ConnectionLaw opts n (s.opens .ssh) := h.opens hssh nofun
  have hquiet : sentBy i (s.opens .ssh).trail = [] := (sentBy_cons_other rfl s.trail).trans hsent
  rw [HostConnection.resume]
  cases opts.connectionClass with
  | mcpOrSsh mcpServerName => exact ⟨hopens, addsOwn_one rfl nofun, hquiet, List.mem_cons_self⟩
  | unraid =>
    have hlaw := hopens.capabilities (opts.sshCapabilities none) List.mem_cons_self
    exact ⟨hlaw, addsOwn_one rfl nofun, hquiet, .ssh, List.mem_cons_self⟩

theorem advances_fingerprinted (hopened : .opened .ssh ∈ s.trail) (certFingerprint : Option JsString) :
    Advances opts n i s (s.fingerprinted opts certFingerprint) :=
  ⟨h.capabilities (opts.sshCapabilities certFingerprint) hopened, addsOwn_same rfl, hsent, .ssh, hopened⟩

/-! ### `exec` and `disconnect` -/

theorem advances_exec (hi : i < n) (command : JsString) (timeoutMs : Option ℕ) (now : ℤ) :
    Advances opts n i s (s.exec opts i command timeoutMs now) := by
  have hused : ConnectionLaw opts n (s.used now) := h.same rfl rfl h.capable rfl
  rw [HostConnection.exec]
  cases hactive : s.activeTransport opts with
  | none => exact ⟨h, addsOwn_same rfl, .inl hsent, trivial⟩
  | some transport =>
    obtain ⟨hconnected, hopened⟩ := opened_of_activeTransport h hactive
    have hlaw := hused.sends hi command hconnected hopened
    have hdelivered := sentBy_sending opts command transport
      (show sentBy i (s.used now).trail = [] from hsent)
    dsimp only
    cases transport with
    | mcp => exact ⟨hlaw, addsOwn_one rfl fun j hj => (Option.some.inj hj).symm, hdelivered, trivial⟩
    | ssh =>
      dsimp only
      split
      next creds hcreds _ =>
        rw [h.creds creds hcreds]
        exact ⟨hlaw, addsOwn_one rfl fun j hj => (Option.some.inj hj).symm, hdelivered, trivial⟩
      · exact ⟨hused, addsOwn_same rfl, .inl hsent, trivial⟩

theorem advances_closes : Advances opts n i s (s.closes, .closed) where
  law := h.flagged .closed s.closes rfl rfl rfl rfl rfl h.creds nofun nofun nofun
  adds := addsOwn_one rfl nofun
  call := ⟨(sentBy_cons_other rfl s.trail).trans hsent, trivial⟩

theorem advances_closeSsh : Advances opts n i s (s.closeSsh opts) := by
  rw [HostConnection.closeSsh]
  split_ifs
  · exact ⟨h.same rfl rfl h.capable rfl, addsOwn_same rfl, hsent, trivial⟩
  · exact advances_closes h hsent

theorem advances_disconnect : Advances opts n i s (s.disconnect opts) := by
  rw [HostConnection.disconnect]
  split_ifs with hmcp
  · obtain ⟨c, hc, htransport⟩ := Option.map_eq_some_iff.mp hmcp.2
    have hmay := h.permitted _ (h.capable c hc) c.transport rfl
    rw [htransport] at hmay
    refine ⟨?_, addsOwn_one rfl nofun, (sentBy_cons_other rfl s.trail).trans hsent, trivial⟩
    apply h.flagged .mcpDisconnect (s.record .mcpDisconnect) rfl rfl h.flag rfl rfl h.creds
    · exact fun transport ht => Option.some.inj ht ▸ hmay
    · exact nofun
    · exact nofun
  · exact advances_closeSsh h hsent

end Calls

/-! ### Runs -/

theorem advances_start (h : ConnectionLaw opts n s) (request : ConnectionRequest) :
    Advances opts (n+1) n s (s.start opts n request) := by
  cases request with
  | connect now => exact advances_connect h.weaken h.unsent now
  | exec command timeoutMs now =>
    exact advances_exec h.weaken h.unsent (Nat.lt_succ_self n) command timeoutMs now
  | disconnect => exact advances_disconnect h.weaken h.unsent

/-- An `exec` that is over has sent what it had. -/
theorem delivered_execCall {sent : List ConnectionMark} {command : JsString} {transport : Transport}
    (h : sent = [opts.sending i command transport]) (outcome : Except TransportError ExecResult) :
    (HostConnection.execCall command outcome).Delivered opts i sent := by
  cases outcome with
  | ok result => exact ⟨transport, h⟩
  | error e => exact .inr ⟨transport, h⟩

theorem connects_execCall (command : JsString) (outcome : Except TransportError ExecResult)
    (trail : List ConnectionMark) : (HostConnection.execCall command outcome).Connects opts trail := by
  cases outcome <;> trivial

theorem advances_settle (h : ConnectionLaw opts n s) (hcall : CallLaw opts i call s)
    {answer : ConnectionAnswer} (hmay : opts.permits answer) {gone : ConnectionTurn}
    (hgone : s.settle opts call answer = some gone) : Advances opts n i s gone := by
  obtain ⟨hsent, hconnects⟩ := hcall
  cases call with
  | connectingMcp =>
    cases answer with
    | mcpConnected outcome => exact Option.some.inj hgone ▸ advances_mcpSettled h hsent hconnects hmay
    | mcpConnectTimedOut => exact Option.some.inj hgone ▸ advances_mcpFailed h hsent hconnects _
    | _ => cases hgone
  | preflight mcpError =>
    cases answer with
    | preflightRun outcome =>
      exact Option.some.inj hgone ▸ advances_preflightSettled h hsent hconnects.1 hconnects.2 outcome
    | _ => cases hgone
  | authenticated =>
    cases answer with
    | resumed => exact Option.some.inj hgone ▸ advances_resume h hsent hconnects
    | _ => cases hgone
  | fingerprinting =>
    cases answer with
    | fingerprintRead certFingerprint =>
      exact Option.some.inj hgone ▸ advances_fingerprinted h hsent hconnects certFingerprint
    | _ => cases hgone
  | execMcp command timeoutMs start =>
    cases answer with
    | mcpCalled outcome now =>
      rw [← Option.some.inj hgone]
      exact ⟨h, addsOwn_same rfl, delivered_execCall hsent _, connects_execCall _ _ _⟩
    | mcpCallTimedOut =>
      rw [← Option.some.inj hgone]
      exact ⟨h, addsOwn_same rfl, .inr ⟨.mcp, hsent⟩, trivial⟩
    | _ => cases hgone
  | execSsh command timeoutMs start =>
    cases answer with
    | commandRun outcome now =>
      rw [← Option.some.inj hgone]
      exact ⟨h, addsOwn_same rfl, delivered_execCall hsent _, connects_execCall _ _ _⟩
    | _ => cases hgone
  | closingMcp =>
    cases answer with
    | transportClosed => exact Option.some.inj hgone ▸ advances_closeSsh h hsent
    | _ => cases hgone
  | closingSsh =>
    cases answer with
    | transportClosed => exact Option.some.inj hgone ▸ advances_closes h hsent
    | _ => cases hgone
  | _ => cases answer <;> cases hgone

theorem connectionCalls_keeps (opts : ConnectionOptions) :
    (connectionCalls opts).Keeps (ConnectionLaw opts) AddsOwn (CallLaw opts) where
  starts n request s h := by
    obtain ⟨hlaw, hadds, hcall⟩ := advances_start h request
    exact ⟨hlaw, hadds, hcall⟩
  settles n i call answer s s' call' h hi hcall hmay hgone := by
    obtain ⟨hlaw, hadds, hcall'⟩ := advances_settle h hcall hmay hgone
    exact ⟨hlaw, hadds, hcall'⟩
  relies i j call s s' hij hadds hcall := callLaw_relies hij hadds hcall

theorem connectionLaw_fresh (opts : ConnectionOptions) : ConnectionLaw opts 0 .fresh where
  flag := rfl
  capable := nofun
  creds := nofun
  guarded := trivial
  numbered := nofun
  permitted := nofun
  wired := nofun
  worded := nofun

/-- What is reached by calls on one connection, in any interleaving -/
def ConnectionReached (opts : ConnectionOptions) (s : HostCalls) : Prop :=
  (connectionCalls opts).interleaved.Reaches anyEvent ⟨.fresh, []⟩ s

theorem ConnectionReached.kept {s : HostCalls} (h : ConnectionReached opts s) :
    Routine.Kept (ConnectionLaw opts) (CallLaw opts) s :=
  (connectionCalls_keeps opts).reached (connectionLaw_fresh opts) h

/-! ### A run -/

def dockerOptions : ConnectionOptions where
  connectionClass := .mcpOrSsh (js "mcp-server-docker")
  hostname := js "10.0.0.5"
  sshUser := some (js "ops")
  sshPort := none
  privateKeyPath := js "/keys/docker"
  certPath := []
  preferTransport := none
  mcpTimeoutMs := none
  mcpWired := true

def ranWell : SSHOutcome := .ok ⟨js "ok", [], .ofNat 0, false⟩

/-- The MCP server does not answer, `ssh` does, and a command is run; then one comes too late. -/
def fallbackRun : List (CallEvent ConnectionRequest ConnectionAnswer) :=
  [.make (.connect 0), .make (.exec (js "docker ps") none 1), .settle 0 .mcpConnectTimedOut,
    .settle 0 (.preflightRun ranWell), .settle 0 .resumed, .settle 0 (.fingerprintRead none),
    .make (.exec (js "docker ps") none 2), .settle 2 (.commandRun ranWell 3), .make .disconnect,
    .settle 3 .transportClosed, .make (.exec (js "docker ps") none 4)]

def fallbackEnd : HostCalls :=
  (connectionCalls dockerOptions).interleaved.after ⟨.fresh, []⟩ fallbackRun

theorem fallbackEnd_reached : ConnectionReached dockerOptions fallbackEnd := by
  apply Permits.reaches
  exact ⟨trivial, trivial, trivial, trivial, ⟨rfl, rfl⟩, trivial, ⟨trivial, rfl⟩, trivial,
    ⟨trivial, rfl⟩, trivial, ⟨trivial, rfl⟩, trivial, trivial, trivial, ⟨trivial, rfl⟩, trivial,
    trivial, trivial, ⟨trivial, rfl⟩, trivial, trivial, trivial, trivial⟩

/-! ### All runs -/

/-- In every interleaving of calls, and whatever the MCP server and `ssh` answer: a command goes out only over
a transport that has been opened, while the connection has not been closed since one was. -/
theorem commands_guarded (opts : ConnectionOptions) (s : HostCalls)
    (h : ConnectionReached opts s) : CommandsGuarded s.shared.trail := h.kept.shared.guarded

theorem commands_guarded_fallback : CommandsGuarded fallbackEnd.shared.trail :=
  commands_guarded dockerOptions fallbackEnd fallbackEnd_reached

/-- In every interleaving of calls, each `exec` has sent its own command only, once when it has returned. -/
theorem commands_delivered (opts : ConnectionOptions) (s : HostCalls)
    (h : ConnectionReached opts s) : CommandsDelivered opts s where
  own i call hcall := (h.kept.calls i call hcall).delivered
  made := h.kept.shared.numbered

theorem commands_delivered_fallback : CommandsDelivered dockerOptions fallbackEnd :=
  commands_delivered dockerOptions fallbackEnd fallbackEnd_reached

end Homelab
