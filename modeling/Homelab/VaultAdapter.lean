import Homelab.Dialogue
import Homelab.ProbeScans
import Homelab.ServiceEndpoints

/-! `VaultAdapter.discover`: the paths of the secrets of a Vault, which are listed mount by mount and folder by
folder. -/
namespace Homelab
open Js Dialogue

/-! ### Requests -/

structure KvRequest where
  method : JsString
  url : JsString
  headers : List (JsString × JsString)

/-- A response: its status, whether it is one of success, and what `json()` gives -/
structure KvResponse where
  status : ℕ
  ok : Bool
  json : Except JsString JsValue

/-- The response, or the message with which the request fails -/
abbrev KvAnswer (_ : KvRequest) := Except JsString KvResponse

abbrev KvLog := List (Exchange KvAnswer)

/-- Computations whose errors are the messages of what is thrown -/
abbrev KvWalk := Dialogue KvAnswer JsString

/-! ### Listing -/

def listUrl (vaultAddr mount pre : JsString) : JsString :=
  vaultAddr ++ js "/v1/" ++ mount ++ js "/metadata/" ++ pre

def listRequest (vaultAddr token mount pre : JsString) : KvRequest where
  method := js "LIST"
  url := listUrl vaultAddr mount pre
  headers := [(js "X-Vault-Token", token), (js "Accept", js "application/json")]

/-- The elements of `body.data?.keys ?? []`, or the message of what is thrown -/
def answeredKeys (url : JsString) : Except JsString KvResponse → Except JsString (List JsValue)
  | .error message => .error message
  | .ok resp =>
    if resp.status = 404 then .ok []
    else if !resp.ok then
      .error (js "Vault LIST " ++ url ++ js " returned HTTP " ++ (JsNumber.ofNat resp.status).toText)
    else do
      let body ← resp.json
      match body.get? (js "data") with
      | none => .error (js "Cannot read properties of null (reading 'data')")
      | some data =>
        match iterate (nullish (property (js "keys") data) (.arr [])) with
        | none => .error (js "keys is not iterable")
        | some keys => .ok keys

def isFolderKey (key : JsString) : Bool := key.getLast? = some 0x2F

def fullKey (pre key : JsString) : JsString := if pre ≠ [] then pre ++ key else key

/-- The loop over the keys, in which `recur` lists a folder -/
def visitKeys (recur : JsString → KvWalk (List JsString)) (pre : JsString) : List JsValue → KvWalk (List JsString)
  | [] => pure []
  | .str key :: rest =>
    if isFolderKey key then do
      let children ← recur (fullKey pre key)
      let others ← visitKeys recur pre rest
      pure (fullKey pre key :: children ++ others)
    else do
      let others ← visitKeys recur pre rest
      pure (fullKey pre key :: others)
  | _ :: _ => .fail (js "key.endsWith is not a function")

/-- `levels` is how many levels may be listed from here on. -/
def listPathsRecursive (vaultAddr token mount : JsString) : ℕ → JsString → KvWalk (List JsString)
  | 0, _ => pure []
  | levels+1, pre => do
    let answer ← put (listRequest vaultAddr token mount pre)
    match answeredKeys (listUrl vaultAddr mount pre) answer with
    | .error message => .fail message
    | .ok keys => visitKeys (listPathsRecursive vaultAddr token mount levels) pre keys

/-! ### The Vault -/

/-- `VAULT_ADDR` and `VAULT_TOKEN` -/
structure VaultEnvironment where
  vaultAddr : Option JsString
  vaultToken : Option JsString

def deriveVaultAddress (entity : JsValue) (env : VaultEnvironment) : Option JsString :=
  match attributeOf (js "vault_addr") entity, env.vaultAddr, attributeOf (js "host") entity with
  | .str (c :: cs), _, _ => some (stripSlash (c :: cs))
  | _, some (c :: cs), _ => some (stripSlash (c :: cs))
  | _, _, .str (c :: cs) => some (js "http://" ++ (c :: cs) ++ js ":8200")
  | _, _, _ => none

/-- A mount in a list: a text that is not empty -/
def mountText : JsValue → Option JsString
  | .str (c :: cs) => some (trim (c :: cs))
  | _ => none

def extractKvMounts (entity : JsValue) : List JsString :=
  match attributeOf (js "kv_mounts") entity with
  | .str (c :: cs) => (((c :: cs).splitOn 0x2C).map trim).filter (· ≠ [])
  | .arr (m :: ms) => (m :: ms).filterMap mountText
  | _ => [js "secret"]

structure VaultAdapterResult where
  entities : List Fields
  edges : List Fields
  keyCount : ℕ
  degraded : Bool
  degradeReason : Option JsString

/-- The secret at a path of a mount -/
structure SecretPath where
  mount : JsString
  path : JsString
deriving DecidableEq

namespace SecretPath

variable (now : JsString) (vault : JsValue) (p : SecretPath)

def fullPath : JsString := p.mount ++ js "/" ++ p.path

def id : JsString := js "secret-ref:vault:" ++ p.fullPath

def entity : Fields :=
  [(js "id", .str p.id), (js "kind", .str (js "secret-ref")), (js "name", .str p.fullPath),
    (js "attributes", .obj [(js "path", .str p.fullPath), (js "mount", .str p.mount)]),
    (js "source", .str (js "vault")), (js "discovered_at", .str now), (js "last_seen", .str now),
    (js "status", .str (js "active"))]

def edge : Fields :=
  [(js "id", .str (js "member-of:" ++ p.id ++ js ":" ++ textOf (js "id") vault)), (js "from", .str p.id),
    (js "to", property (js "id") vault), (js "type", .str (js "member-of")), (js "discovered_at", .str now),
    (js "last_seen", .str now), (js "status", .str (js "active"))]

end SecretPath

/-- The secrets of the mounts that can be listed to their end -/
def walkMounts (list : JsString → KvWalk (List JsString)) : List JsString → KvWalk (List SecretPath)
  | [] => pure []
  | mount :: mounts => do
    let walked ← (list mount).attempt
    let others ← walkMounts list mounts
    match walked with
    | .error _ => pure others
    | .ok paths => pure ((paths.filter fun p => !isFolderKey p).map (SecretPath.mk mount) ++ others)

/-- What is found without an address or a token -/
def degradedResult (reason : JsString) : VaultAdapterResult := ⟨[], [], 0, true, some reason⟩

def discoverVault (now : JsString) (env : VaultEnvironment) (maxDepth : ℤ) (doc : GraphDocument) :
    KvWalk VaultAdapterResult :=
  match (entitiesByKind (js "service") doc).filter
      fun e => equalsText (js "secrets") (attributeOf (js "role") e) with
  | [] => pure ⟨[], [], 0, false, none⟩
  | vault :: _ =>
    match deriveVaultAddress vault env, env.vaultToken.getD [] with
    | none, _ => pure (degradedResult
        (js "cannot derive Vault address from entity attributes or VAULT_ADDR env"))
    | some _, [] => pure (degradedResult (js "VAULT_TOKEN not set; cannot list KV paths"))
    | some vaultAddr, token => do
      let found ← walkMounts
        (fun mount => listPathsRecursive vaultAddr token mount (maxDepth+1).toNat []) (extractKvMounts vault)
      pure ⟨found.map (SecretPath.entity now), found.map (SecretPath.edge now vault), found.length, false, none⟩

end Homelab
