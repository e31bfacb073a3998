import Homelab.Automaton
import Homelab.RoleCatalog
import Homelab.BackupVerify
import Homelab.JsRecord

/-! `VaultSecretResolver`: calls of `resolve` and `ping` that wait for Vault, with `dispose` between
their awaits. -/
namespace Homelab
open Js

/-! ### Configuration and errors -/

structure CredentialRef where
  vaultPath : JsString
  vaultField : JsString

structure Approle where
  roleIdEnv : JsString
  secretIdEnv : JsString

inductive VaultAuthMethod
  | approle | token | oidc | kubernetes

def VaultAuthMethod.text : VaultAuthMethod → JsString
  | approle => js "approle"
  | token => js "token"
  | oidc => js "oidc"
  | kubernetes => js "kubernetes"

structure VaultConfig where
  address : JsString
  authMethod : VaultAuthMethod
  approle : Option Approle

/-- What a call rejects with: one of the classes of `errors.ts`, or an error that it lets through. -/
inductive VaultError
  | unreachable (address : JsString) (authMethod : VaultAuthMethod)
  | auth (authMethod : VaultAuthMethod) (roleIdEnv secretIdEnv : Option JsString)
  | permission (vaultPath : JsString)
  | missing (ref : CredentialRef)
  | thrown

def VaultError.message : VaultError → JsString
  | unreachable address authMethod =>
    js "vault unreachable: " ++ address ++ js " via " ++ authMethod.text
  | auth authMethod roleIdEnv secretIdEnv =>
    let envPart :=
      match roleIdEnv, secretIdEnv with
      | some roleIdEnv, some secretIdEnv => js "; check " ++ roleIdEnv ++ js "/" ++ secretIdEnv
      | _, _ => []
    js "vault auth failed: " ++ authMethod.text ++ envPart
  | permission vaultPath => js "vault permission denied: cannot read " ++ vaultPath
  | missing ref => js "vault path " ++ ref.vaultPath ++ js " missing field " ++ ref.vaultField
  | thrown => []

structure ResolvedSecret where
  value : List UInt8
  refHash : JsString
  ref : CredentialRef

/-- What the resolver is built with. Clock times are of any type: `before now expiresAt` compares two,
`refreshAt now leaseDuration` is the time at which the ratio of the lease is over, and `nextDay` adds
24 hours. `bufferFrom` is `Buffer.from` on a value that is no text. -/
structure VaultHost (Time : Type) where
  cfg : VaultConfig
  env : JsString → Option JsString
  before : Time → Time → Bool
  refreshAt : Time → JsValue → Time
  nextDay : Time → Time
  sha256 : JsString → JsString
  bufferFrom : JsValue → Option (List UInt8)

/-! ### Bodies -/

/-- `!v` -/
def isFalsy : JsValue → Bool
  | .undefined => true
  | .null => true
  | .bool b => !b
  | .num (.fin d) => d.digits = 0
  | .num .nan => true
  | .str s => s.isEmpty
  | .bigint n => n = 0
  | _ => false

/-- `data[field]` where `field in data`, and `undefined` where it is not; `in` throws on a primitive. -/
def secretField (field : JsString) : JsValue → Option JsValue
  | .undefined => some .undefined
  | .obj fs => some (lookupPlain fs field)
  | .arr es =>
    if hasKey field (.arr es) then
      if field = js "length" then some (.num (.ofNat es.length))
      else if field = js "__proto__" then some (.arr [])
      else
        match (arrayIndex field).bind fun i => es[i]? with
        | some v => some v
        | none => some .function
    else some .undefined
  | _ => none

/-- `resp.ok` -/
def isOk (status : ℕ) : Bool := 200 ≤ status && status ≤ 299

/-- The statuses of the health check with which Vault counts as reachable -/
def isReachable (status : ℕ) : Bool :=
  status = 200 || status = 429 || status = 473 || status = 501 || status = 503

section Resolver

variable {Time : Type} (host : VaultHost Time)

namespace VaultHost

/-- `Buffer.from(rawValue, 'utf8')` -/
def buffer : JsValue → Option (List UInt8)
  | .str s => some (encodeUtf8 s)
  | v => host.bufferFrom v

def computeRefHash (ref : CredentialRef) (version : JsValue) : JsString :=
  js "sha256:" ++ host.sha256 (js "vault:" ++ ref.vaultPath ++ js ":" ++ ref.vaultField ++ js ":" ++
    version.coerce)

def unreachable : VaultError := .unreachable host.cfg.address host.cfg.authMethod

def approleRefused (approle : Approle) : VaultError :=
  .auth host.cfg.authMethod (some approle.roleIdEnv) (some approle.secretIdEnv)

/-- The token and the duration of its lease, from the body of a login -/
def readLogin (approle : Approle) (body : JsValue) : Except VaultError (JsValue × JsValue) :=
  match body.get? (js "auth") with
  | none => .error .thrown
  | some auth =>
    let clientToken := property (js "client_token") auth
    let leaseDuration := nullish (property (js "lease_duration") auth) (.num (.ofNat 3600))
    if isFalsy clientToken then .error (host.approleRefused approle)
    else if leaseDuration.throwsOnCoerce then .error .thrown
    else .ok (clientToken, leaseDuration)

/-- The secret, from the body that Vault has sent for it -/
def readSecret (ref : CredentialRef) (body : JsValue) : Except VaultError ResolvedSecret :=
  match body.get? (js "data") with
  | none => .error .thrown
  | some outer =>
    match secretField ref.vaultField (property (js "data") outer) with
    | none => .error .thrown
    | some .undefined => .error (.missing ref)
    | some rawValue =>
      let version := nullish (property (js "version") (property (js "metadata") outer)) (.num (.ofNat 0))
      if version.throwsOnCoerce then .error .thrown
      else
        match host.buffer rawValue with
        | none => .error .thrown
        | some value => .ok ⟨value, host.computeRefHash ref version, ref⟩

end VaultHost

/-! ### Calls -/

/-- A request with the signal of its own controller, and how often the resolver had been disposed of
when it was sent. -/
structure VaultRequest where
  url : JsString
  method : JsString
  headers : Fields
  body : Option JsString
  signal : ℕ
  sentAt : ℕ

/-- What a call returns: `ping` returns nothing. -/
inductive VaultReply
  | secret (s : ResolvedSecret)
  | reachable

/-- What a call waits for: an answer to its login or to its request, a body, or the microtask after
`getToken` has returned; or how it has settled, and how often the resolver had been disposed of then. -/
inductive VaultStage
  | loggingIn (ref : CredentialRef) (approle : Approle) (sent : VaultRequest)
  | readingLogin (ref : CredentialRef) (approle : Approle)
  | authorised (ref : CredentialRef) (token : JsValue)
  | fetching (ref : CredentialRef) (sent : VaultRequest)
  | readingSecret (ref : CredentialRef)
  | pinging (sent : VaultRequest)
  | settled (result : Except VaultError VaultReply) (settledAt : ℕ)

/-- The request that is in flight -/
def VaultStage.request : VaultStage → Option VaultRequest
  | .loggingIn _ _ sent => some sent
  | .fetching _ sent => some sent
  | .pinging sent => some sent
  | _ => none

/-- A call, and how often the resolver had been disposed of when it was made -/
structure VaultCall where
  since : ℕ
  stage : VaultStage

/-- The token, and of its login how often the resolver had been disposed of when its call was made -/
structure TokenCache (Time : Type) where
  token : JsValue
  expiresAt : Time
  since : ℕ

/-- A response, with its request and how often the resolver had been disposed of when it came -/
structure VaultAnswer where
  request : VaultRequest
  status : ℕ
  cameAt : ℕ

/-- The resolver; how many controllers were made so far, and which of them have aborted; how often it has
been disposed of; its calls, and the responses that have come. -/
structure VaultState (Time : Type) where
  tokenCache : Option (TokenCache Time)
  abortController : ℕ
  controllers : ℕ
  aborted : List ℕ
  disposals : ℕ
  calls : List VaultCall
  answers : List VaultAnswer

namespace VaultState

def fresh : VaultState Time := ⟨none, 0, 1, [], 0, [], []⟩

variable (s : VaultState Time)

def dispose : VaultState Time :=
  { s with
    aborted := s.abortController :: s.aborted
    abortController := s.controllers
    controllers := s.controllers+1
    tokenCache := none
    disposals := s.disposals+1 }

/-- `doFetch`, up to its await: the request has a controller of its own. -/
def doFetch (url method : JsString) (headers : Fields) (body : Option JsString) :
    VaultRequest × VaultState Time :=
  (⟨url, method, headers, body, s.controllers, s.disposals⟩, { s with controllers := s.controllers+1 })

def settle (result : Except VaultError VaultReply) : VaultStage := .settled result s.disposals

def loginApprole (ref : CredentialRef) : VaultStage × VaultState Time :=
  match host.cfg.approle with
  | none => (s.settle (.error (.auth host.cfg.authMethod none none)), s)
  | some approle =>
    match host.env approle.roleIdEnv, host.env approle.secretIdEnv with
    | some (r :: roleId), some (c :: secretId) =>
      let (sent, s) := s.doFetch (host.cfg.address ++ js "/v1/auth/approle/login") (js "POST")
        [(js "Content-Type", .str (js "application/json"))]
        (some (jsonText (.obj [(js "role_id", .str (r :: roleId)), (js "secret_id", .str (c :: secretId))])))
      (.loggingIn ref approle sent, s)
    | _, _ => (s.settle (.error (host.approleRefused approle)), s)

def login (ref : CredentialRef) (now : Time) : VaultStage × VaultState Time :=
  match host.cfg.authMethod with
  | .approle => s.loginApprole host ref
  | .token =>
    match host.env (js "VAULT_TOKEN") with
    | some (c :: token) =>
      (.authorised ref (.str (c :: token)),
        { s with tokenCache := some ⟨.str (c :: token), host.nextDay now, s.disposals⟩ })
    | _ => (s.settle (.error (.auth host.cfg.authMethod (some (js "VAULT_TOKEN")) none)), s)
  | _ => (s.settle (.error (.auth host.cfg.authMethod none none)), s)

/-- `getToken`; a login reads the clock again. -/
def getToken (ref : CredentialRef) (now later : Time) : VaultStage × VaultState Time :=
  match s.tokenCache with
  | some cache =>
    if host.before now cache.expiresAt then (.authorised ref cache.token, s) else s.login host ref later
  | none => s.login host ref later

/-- The call that begins with the stage -/
def enter (next : VaultStage × VaultState Time) : VaultState Time :=
  { next.2 with calls := next.2.calls ++ [⟨next.2.disposals, next.1⟩] }

def setStage (i : ℕ) (c : VaultCall) (stage : VaultStage) : VaultState Time :=
  { s with calls := s.calls.set i { c with stage } }

/-- What a call makes of the status of a response -/
def afterStatus (status : ℕ) : VaultStage → VaultStage
  | .loggingIn ref approle _ =>
    if status = 400 ∨ status = 403 then s.settle (.error (host.approleRefused approle))
    else if isOk status then .readingLogin ref approle
    else s.settle (.error host.unreachable)
  | .fetching ref _ =>
    if status = 403 then s.settle (.error (.permission ref.vaultPath))
    else if status = 404 then s.settle (.error (.missing ref))
    else if isOk status then .readingSecret ref
    else s.settle (.error host.unreachable)
  | .pinging _ =>
    if isReachable status then s.settle (.ok .reachable) else s.settle (.error host.unreachable)
  | stage => stage

/-- What becomes of the request of a call: a response, or a rejection of `fetch` -/
def answered (i : ℕ) (c : VaultCall) (sent : VaultRequest) : Option ℕ → VaultState Time
  | none => s.setStage i c (s.settle (.error host.unreachable))
  | some status =>
    { s.setStage i c (s.afterStatus host status c.stage) with
      answers := ⟨sent, status, s.disposals⟩ :: s.answers }

/-- The timer of a request that has not been answered -/
def timedOut (i : ℕ) (c : VaultCall) (sent : VaultRequest) : VaultState Time :=
  { s.setStage i c (s.settle (.error host.unreachable)) with aborted := sent.signal :: s.aborted }

/-- What a call makes of a body, at a time; reading it may have failed. -/
def bodyRead (i : ℕ) (c : VaultCall) (body : Option JsValue) (now : Time) : VaultState Time :=
  match body with
  | none => s.setStage i c (s.settle (.error .thrown))
  | some body =>
    match c.stage with
    | .readingLogin ref approle =>
      match host.readLogin approle body with
      | .error e => s.setStage i c (s.settle (.error e))
      | .ok (token, leaseDuration) =>
        { s.setStage i c (.authorised ref token) with
          tokenCache := some ⟨token, host.refreshAt now leaseDuration, c.since⟩ }
    | .readingSecret ref => s.setStage i c (s.settle ((host.readSecret ref body).map .secret))
    | _ => s

def fetchSecret (ref : CredentialRef) (token : JsValue) : VaultRequest × VaultState Time :=
  s.doFetch (host.cfg.address ++ js "/v1/" ++ ref.vaultPath) (js "GET") [(js "X-Vault-Token", token)] none

/-- `resolve`, after `getToken` has returned -/
def resumed (i : ℕ) (c : VaultCall) : VaultState Time :=
  match c.stage with
  | .authorised ref token =>
    let (sent, s) := s.fetchSecret host ref token
    s.setStage i c (.fetching ref sent)
  | _ => s

def fetchHealth : VaultRequest × VaultState Time :=
  s.doFetch (host.cfg.address ++ js "/v1/sys/health") (js "GET") [] none

def ping : VaultState Time :=
  let (sent, s) := s.fetchHealth host
  enter (.pinging sent, s)

def onCall (i : ℕ) (f : VaultCall → VaultState Time) : VaultState Time :=
  match s.calls[i]? with
  | none => s
  | some c => f c

def onRequest (c : VaultCall) (f : VaultRequest → VaultState Time) : VaultState Time :=
  match c.stage.request with
  | none => s
  | some sent => f sent

end VaultState

/-- The calls of the resolver, and what the calls that are numbered wait for: an answer (`none` when
`fetch` rejects), the timer of a request, a body (`none` when `json` rejects), a microtask. The timer of a
request that has been answered is not cleared either, but aborts nothing but the reading of its body. -/
inductive VaultEvent (Time : Type)
  | resolve (ref : CredentialRef) (now later : Time)
  | ping
  | dispose
  | answered (i : ℕ) (status : Option ℕ)
  | timedOut (i : ℕ)
  | bodyRead (i : ℕ) (body : Option JsValue) (now : Time)
  | resumed (i : ℕ)

def VaultStage.readsBody : VaultStage → Bool
  | .readingLogin _ _ => true
  | .readingSecret _ => true
  | _ => false

def VaultStage.isAuthorised : VaultStage → Bool
  | .authorised _ _ => true
  | _ => false

/-- The resolver; `fetch` has no response for a request whose signal has aborted. -/
def vaultResolver : Automaton (VaultState Time) (VaultEvent Time) where
  allowed s
    | .answered i status => ∃ c ∈ s.calls[i]?, ∃ sent ∈ c.stage.request,
        status.isSome → sent.signal ∉ s.aborted
    | .timedOut i => ∃ c ∈ s.calls[i]?, c.stage.request.isSome
    | .bodyRead i _ _ => ∃ c ∈ s.calls[i]?, c.stage.readsBody
    | .resumed i => ∃ c ∈ s.calls[i]?, c.stage.isAuthorised
    | _ => True
  next s
    | .resolve ref now later => VaultState.enter (s.getToken host ref now later)
    | .ping => s.ping host
    | .dispose => s.dispose
    | .answered i status => s.onCall i fun c => s.onRequest c fun sent => s.answered host i c sent status
    | .timedOut i => s.onCall i fun c => s.onRequest c fun sent => s.timedOut host i c sent
    | .bodyRead i body now => s.onCall i fun c => s.bodyRead host i c body now
    | .resumed i => s.onCall i fun c => s.resumed host i c

end Resolver

end Homelab
