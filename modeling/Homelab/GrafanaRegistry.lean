import Homelab.LogsService

/-! `GrafanaRegistry`: the catalogue of dashboards, which is fetched once and kept, and the dashboards that match
an entity. -/
namespace Homelab
open Js Dialogue

/-! ### Dashboards -/

/-- An entry of the catalogue. The title of its folder and its tags are not checked. -/
structure GrafanaDashboard where
  uid : JsString
  title : JsString
  url : JsString
  folderTitle : JsValue
  tags : List JsValue

inductive MatchKind
  | exact
  | fuzzy
deriving DecidableEq

structure DashboardLink where
  uid : JsString
  title : JsString
  folder : JsString
  tags : List JsValue
  deepLink : JsString
  matchKind : MatchKind

/-! ### Signals -/

/-- `s.replace(/[^a-z0-9]+/g, ' ')`; `inRun` says that the unit before has been replaced. -/
def replaceRuns : (inRun : Bool) → JsString → JsString
  | _, [] => []
  | inRun, c :: rest =>
    let n := c.toNat
    if (0x61 ≤ n && n ≤ 0x7A) || (0x30 ≤ n && n ≤ 0x39) then c :: replaceRuns false rest
    else if inRun then replaceRuns true rest
    else 0x20 :: replaceRuns true rest

section Signals

variable (rt : ObservabilityRuntime)

def normaliseSignal (s : JsString) : JsString := trim (replaceRuns false (rt.toLowerCase s))

/-- The texts in lower case without white space around them, each once -/
def distinctSignals (raw : List JsString) : List JsString :=
  ((raw.map fun s => trim (rt.toLowerCase s)).filter fun s => s ≠ []).eraseDups

/-- A value that is a text of at least one unit -/
def textSignal : JsValue → List JsString
  | .str (c :: cs) => [c :: cs]
  | _ => []

def entitySignals (e : ServiceEntity) : List JsString :=
  distinctSignals rt (e.name :: textSignal (e.attribute (js "role")) ++
    [js "service", js "job", js "app", js "component"].flatMap fun label =>
      textSignal (nullish (e.attribute (js "label_" ++ label)) (e.attribute label)))

/-- `v.toLowerCase()` on a value that may be no text; `name` is what the source calls it. -/
def lowerOrThrow (name : JsString) : JsValue → Except JsString JsString
  | .str s => .ok (rt.toLowerCase s)
  | .null => .error (js "Cannot read properties of null (reading 'toLowerCase')")
  | .undefined => .error (js "Cannot read properties of undefined (reading 'toLowerCase')")
  | _ => .error (name ++ js ".toLowerCase is not a function")

/-- The folder of a dashboard as it is compared -/
def normFolder (d : GrafanaDashboard) : Except JsString JsString :=
  match d.folderTitle with
  | .undefined => .ok []
  | folder => (lowerOrThrow rt (js "s") folder).map fun s => trim (replaceRuns false s)

/-- How one signal matches a dashboard of this title, folder and tags -/
def matchSignal (title folder : JsString) (tags : List JsString) (signal : JsString) : Option MatchKind :=
  let norm := normaliseSignal rt signal
  if norm ∈ tags then some .exact
  else if title = norm then some .exact
  else if folder ≠ [] ∧ folder = norm then some .exact
  else if 3 ≤ norm.length ∧ (includes norm title ∨ (folder ≠ [] ∧ includes norm folder) ∨
      tags.any (includes norm)) then some .fuzzy
  else none

def matchDashboard (signals : List JsString) (d : GrafanaDashboard) : Except JsString (Option MatchKind) := do
  let folder ← normFolder rt d
  let tags ← d.tags.mapM (lowerOrThrow rt (js "t"))
  pure (signals.findSome? (matchSignal rt (normaliseSignal rt d.title) folder (tags.map trim)))

end Signals

/-! ### Links -/

/-- `a || b` on texts -/
def orText (a b : JsString) : JsString := if a = [] then b else a

def buildDeepLink (grafanaBase : JsString) (d : GrafanaDashboard) (e : ServiceEntity) : JsString :=
  let dashPath := if d.url.head? = some 0x2F then d.url else js "/" ++ d.url
  let service := orText (orText (e.textAttribute (js "label_service")) (e.textAttribute (js "service"))) e.name
  let job := orText (e.textAttribute (js "label_job")) (e.textAttribute (js "job"))
  let host := e.textAttribute (js "host")
  grafanaBase ++ dashPath ++ js "?" ++ searchParams
    ((if service ≠ [] then [(js "var-service", service)] else []) ++
      (if job ≠ [] ∧ job ≠ service then [(js "var-job", job)] else []) ++
      (if host ≠ [] then [(js "var-instance", host)] else []) ++
      [(js "from", js "now-1h"), (js "to", js "now")])

/-- The link to a dashboard that matches -/
def dashboardLink (base : JsString) (e : ServiceEntity) (d : GrafanaDashboard) (kind : MatchKind) :
    DashboardLink :=
  ⟨d.uid, d.title, (nullish d.folderTitle (.str [])).coerce, d.tags, buildDeepLink base d e, kind⟩

/-- The dashboards that match, with how they do -/
def matchingDashboards (rt : ObservabilityRuntime) (signals : List JsString) :
    List GrafanaDashboard → Except JsString (List (GrafanaDashboard × MatchKind))
  | [] => .ok []
  | d :: ds => do
    let kind ← matchDashboard rt signals d
    let rest ← matchingDashboards rt signals ds
    pure (match kind with
      | some kind => (d, kind) :: rest
      | none => rest)

/-- The links to the dashboards that match, the exact ones first -/
def dashboardLinks (rt : ObservabilityRuntime) (base : JsString) (e : ServiceEntity)
    (dashboards : List GrafanaDashboard) : Except JsString (List DashboardLink) :=
  let signals := entitySignals rt e
  if dashboards = [] ∨ signals = [] then .ok []
  else do
    let found ← matchingDashboards rt signals dashboards
    let links := found.map fun (d, kind) => dashboardLink base e d kind
    pure (links.filter (·.matchKind = .exact) ++ links.filter (·.matchKind = .fuzzy))

/-! ### `GrafanaRegistry` -/

/-- The registry: `apiToken` is the configured one, `envToken` that of the environment, and `graphStore` says
whether it has a graph to discover Grafana in. -/
structure GrafanaRegistry where
  endpointUrl : Option JsString
  apiToken : Option JsString
  envToken : Option JsString
  graphStore : Bool

/-- What the registry keeps: the base URL and the catalogue, once they have been looked up -/
structure GrafanaCache where
  resolvedBase : Option (Option JsString)
  catalogue : Option (List GrafanaDashboard)

def GrafanaCache.empty : GrafanaCache := ⟨none, none⟩

def resolveGrafanaToken (apiToken envToken : Option JsString) : Option JsString :=
  match apiToken, envToken with
  | some (c :: cs), _ => some (c :: cs)
  | _, some (c :: cs) => some (c :: cs)
  | _, _ => none

/-- An item of the answer that has the fields of a dashboard -/
def grafanaDashboard (item : JsValue) : Option GrafanaDashboard :=
  match property (js "uid") item, property (js "title") item, property (js "url") item with
  | .str uid, .str title, .str url => some ⟨uid, title, url, property (js "folderTitle") item,
      match property (js "tags") item with
      | .arr tags => tags
      | _ => []⟩
  | _, _, _ => none

/-- The dashboards of an answer of success -/
def answeredDashboards (answer : Except JsString HttpResponse) : Option (List GrafanaDashboard) :=
  match answeredBody answer with
  | some (.arr items) => some (items.filterMap grafanaDashboard)
  | _ => none

namespace GrafanaRegistry

variable (rt : ObservabilityRuntime) (registry : GrafanaRegistry)

def resolveEndpoint (cache : GrafanaCache) : Check (Option JsString) :=
  resolveBase .dashboards registry.endpointUrl registry.graphStore (discoverGrafanaEndpoint rt.toLowerCase)
    cache.resolvedBase

/-- `fetchDashboards`, once the endpoint is known; what it returns is the new catalogue. -/
def fetchDashboards (base : JsString) (cache : GrafanaCache) : Check (List GrafanaDashboard) :=
  match cache.catalogue with
  | some dashboards => pure dashboards
  | none => do
    let headers := match resolveGrafanaToken registry.apiToken registry.envToken with
      | some token => [(js "Authorization", js "Bearer " ++ token)]
      | none => []
    let answer ← inquire (.grafana (base ++ js "/api/search?type=dash-db") headers)
    pure ((answeredDashboards answer).getD [])

end GrafanaRegistry

end Homelab
