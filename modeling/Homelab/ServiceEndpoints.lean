import Homelab.Dialogue
import Homelab.DriftObservation
import Homelab.RoleCatalog

/-! The backends of the observability checks: where the inventory graph says that Prometheus, Loki, OpenSearch
and Grafana are, and what is asked over HTTP. -/

namespace Js

/-! ### Texts -/

/-- `s.replace(/\/$/, '')` -/
def stripSlash (s : JsString) : JsString := if s.getLast? = some 0x2F then s.dropLast else s

/-- The code points of a text, each as a text -/
def codePoints : JsString → List JsString
  | [] => []
  | [c] => [[c]]
  | c :: d :: rest =>
    if isHigh c && isLow d then [c, d] :: codePoints rest else [c] :: codePoints (d :: rest)

/-- What `for (const x of v)` goes through; `none` if the value is not iterable. -/
def iterate : JsValue → Option (List JsValue)
  | .arr es => some es
  | .str s => some ((codePoints s).map .str)
  | _ => none

/-- `Object.entries(v)` of a value that is not `null` -/
def ownEntries : JsValue → Fields
  | .obj fs => fs
  | .arr es => es.mapIdx fun i v => (digitsText (digitList i), v)
  | .str s => s.mapIdx fun i c => (digitsText (digitList i), .str [c])
  | _ => []

/-! ### `URLSearchParams` -/

def upperHexUnit (d : ℕ) : CodeUnit := if d < 10 then (0x30+d).toUInt16 else (0x37+d).toUInt16

/-- A byte in `application/x-www-form-urlencoded` -/
def formByte (b : UInt8) : JsString :=
  let n := b.toNat
  if n = 0x20 then [0x2B]
  else if (0x30 ≤ n && n ≤ 0x39) || (0x41 ≤ n && n ≤ 0x5A) || (0x61 ≤ n && n ≤ 0x7A) ||
      n ∈ [0x2A, 0x2D, 0x2E, 0x5F] then [n.toUInt16]
  else [0x25, upperHexUnit (n/0x10), upperHexUnit (n%0x10)]

def formEncode (s : JsString) : JsString := (encodeUtf8 s).flatMap formByte

/-- `params.toString()` -/
def searchParams (params : List (JsString × JsString)) : JsString :=
  (js "&").intercalate (params.map fun p => formEncode p.1 ++ js "=" ++ formEncode p.2)

end Js

namespace Homelab
open Js Dialogue

/-! ### Entities -/

/-- An entity of the graph of kind `service` -/
structure ServiceEntity where
  id : JsString
  name : JsString
  attributes : Fields

def ServiceEntity.attribute (e : ServiceEntity) (k : JsString) : JsValue := getOwn k e.attributes

/-- A text attribute, and `''` for any other one -/
def ServiceEntity.textAttribute (e : ServiceEntity) (k : JsString) : JsString :=
  match e.attribute k with
  | .str s => s
  | _ => []

def entityBaseUrl (e : ServiceEntity) : Option JsString :=
  let url := e.textAttribute (js "url")
  let host := e.textAttribute (js "host")
  if url ≠ [] then some (stripSlash url)
  else if host ≠ [] then
    match e.attribute (js "port") with
    | .num port => some (js "http://" ++ host ++ js ":" ++ port.toText)
    | _ => some (js "http://" ++ host)
  else none

/-! ### Discovery -/

section Discovery

variable (toLowerCase : JsString → JsString)

/-- The entity has one of the roles, and its image contains one of the patterns. -/
def runsImage (roles patterns : List JsString) (e : ServiceEntity) : Bool :=
  (match e.attribute (js "role") with
    | .str role => decide (role ∈ roles)
    | _ => false) &&
  patterns.any fun p => includes p (toLowerCase (e.textAttribute (js "image")))

def monitoringRoles : List JsString := [js "monitoring", js "observability"]

/-- The URL of the first entity that runs the image and has one -/
def discoverEndpoint (patterns : List JsString) (services : List ServiceEntity) : Option JsString :=
  services.findSome? fun e => if runsImage toLowerCase monitoringRoles patterns e then entityBaseUrl e else none

def discoverPrometheusEndpoint : List ServiceEntity → Option JsString :=
  discoverEndpoint toLowerCase [js "prometheus"]

def discoverGrafanaEndpoint : List ServiceEntity → Option JsString :=
  discoverEndpoint toLowerCase [js "grafana"]

structure DiscoveredLogsEndpoints where
  loki : Option JsString
  opensearch : Option JsString

def loggingRoles : List JsString := [js "observability", js "monitoring", js "logging"]

/-- An entity that could be both is taken for Loki as long as there is none. -/
def discoverLogsEndpoint (found : DiscoveredLogsEndpoints) (e : ServiceEntity) : DiscoveredLogsEndpoints :=
  if found.loki = none ∧ runsImage toLowerCase loggingRoles [js "loki", js "grafana/loki"] e then
    { found with loki := entityBaseUrl e }
  else if found.opensearch = none ∧
      runsImage toLowerCase loggingRoles [js "opensearch", js "elasticsearch"] e then
    { found with opensearch := entityBaseUrl e }
  else found

def discoverLogsEndpoints (services : List ServiceEntity) : DiscoveredLogsEndpoints :=
  services.foldl (discoverLogsEndpoint toLowerCase) ⟨none, none⟩

end Discovery

/-! ### Questions -/

inductive OnboardingChannel
  | metrics
  | logs
  | dashboards
deriving DecidableEq

inductive LogsBackend
  | loki
  | opensearch
deriving DecidableEq

/-- A response: whether its status is one of success, and what `json()` gives -/
structure HttpResponse where
  ok : Bool
  json : Except JsString JsValue

/-- The body of an answer of success that is JSON; the request may have failed. -/
def answeredBody : Except JsString HttpResponse → Option JsValue
  | .ok ⟨true, .ok body⟩ => some body
  | _ => none

/-- `body` is what is posted. -/
structure LogsRequest where
  url : JsString
  headers : List (JsString × JsString)
  body : Option JsValue

/-- `entitiesByKind` says which check asks its graph store for the services. -/
inductive ObservabilityAsk
  | clock
  | dateNow
  | randomUuid
  | entitiesByKind (check : OnboardingChannel)
  | prometheus (url : JsString)
  | logs (backend : LogsBackend) (request : LogsRequest)
  | grafana (url : JsString) (headers : List (JsString × JsString))

/-- The milliseconds that a `Date` can hold, from 1970 on -/
abbrev EpochMs := {t : ℕ // t ≤ 8640000000000000}

abbrev ObservabilityReply : ObservabilityAsk → Type
  | .clock => JsString
  | .dateNow => EpochMs
  | .randomUuid => JsString
  | .entitiesByKind _ => Except JsString (List ServiceEntity)
  | .prometheus _ => Except JsString HttpResponse
  | .logs _ _ => Except JsString HttpResponse
  | .grafana _ _ => Except JsString HttpResponse

abbrev ObservabilityLog := List (Exchange ObservabilityReply)

/-- Computations whose errors are the messages of what is thrown -/
abbrev Check := Dialogue ObservabilityReply JsString

def inquire (q : ObservabilityAsk) : Check (ObservabilityReply q) := put q

/-- A base URL: the one that is kept, or else the configured one, or else the one that is discovered -/
def resolveBase (check : OnboardingChannel) (configured : Option JsString) (graphStore : Bool)
    (discover : List ServiceEntity → Option JsString) (cached : Option (Option JsString)) :
    Check (Option JsString) :=
  match cached with
  | some base => pure base
  | none =>
    match configured with
    | some (c :: cs) => pure (some (stripSlash (c :: cs)))
    | _ =>
      if graphStore then do
        match ← inquire (.entitiesByKind check) with
        | .ok services => pure (discover services)
        | .error _ => pure none
      else pure none

end Homelab
