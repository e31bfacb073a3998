import Homelab.JsCoerce
import Homelab.ServiceEndpoints
import Mathlib.Data.List.Sort

/-! `LogsService.query` with its adapters for Loki and OpenSearch. Times are computed exactly; those of the
program are doubles, and may differ in the last millisecond. -/
namespace Homelab
open Js Dialogue

/-! ### Queries and entries -/

structure LogQuery where
  resource : Option JsString
  service : Option JsString
  since : Option JsString
  «until» : Option JsString
  limit : Option JsNumber
  filter : Option JsString

structure LogEntry where
  timestamp : JsString
  level : Option JsString
  message : JsString
  source : JsString
  labels : Fields

/-- What the checks use of the texts and dates of JavaScript: `isoText` is `toISOString` of a time that a `Date`
can hold and `isoNow` that of the current time, `dateParse` has `none` for `NaN`, and `anyOrder` is what `sort`
makes of a list on which the comparator is not consistent. -/
structure ObservabilityRuntime where
  toLowerCase : JsString → JsString
  isoText : ℤ → JsString
  isoNow : JsString
  dateParse : JsString → Option ℤ
  anyOrder : ∀ l : List LogEntry, {l' : List LogEntry // l'.Perm l}

structure LogsAdapterOptions where
  credential : Option JsString
  index : Option JsString
  fieldMapping : Fields

/-- `fieldMapping[key] ?? normal` -/
def LogsAdapterOptions.field (opts : LogsAdapterOptions) (key normal : JsString) : JsString :=
  match getOwn key opts.fieldMapping with
  | .str field => field
  | _ => normal

/-- `headers` with the credential, if there is one -/
def LogsAdapterOptions.headers (opts : LogsAdapterOptions) : List (JsString × JsString) :=
  match opts.credential with
  | some (c :: cs) => [(js "Authorization", js "Bearer " ++ (c :: cs))]
  | _ => []

/-! ### Times -/

section Times

variable (rt : ObservabilityRuntime)

/-- `new Date(ms).toISOString()`, where `none` stands for `NaN`; its result is `none` when it throws. -/
def toISOString (ms : Option ℤ) : Option JsString :=
  ms.bind fun t => if t.natAbs ≤ 8640000000000000 then some (rt.isoText t) else none

def maxLookbackMs : ℤ := 7*24*60*60*1000

/-- `/^(\d+)(s|m|h|d)$/`, as milliseconds -/
def durationMs (value : JsString) : Option ℤ :=
  match (spanDigits value).1, (spanDigits value).2 with
  | [], _ => none
  | digits, [0x73] => some (ofDigitList digits*1000)
  | digits, [0x6D] => some (ofDigitList digits*60000)
  | digits, [0x68] => some (ofDigitList digits*3600000)
  | digits, [0x64] => some (ofDigitList digits*86400000)
  | _, _ => none

def parseSinceMs (value : JsString) (nowMs : ℤ) : ℤ :=
  match durationMs value with
  | some ms => max (nowMs-ms) (nowMs-maxLookbackMs)
  | none =>
    match rt.dateParse value with
    | some t => max t (nowMs-maxLookbackMs)
    | none => nowMs-maxLookbackMs

def sinceMs (q : LogQuery) (nowMs : ℤ) : ℤ :=
  match q.since with
  | some since => parseSinceMs rt since nowMs
  | none => nowMs-3600000

def untilMs (q : LogQuery) (nowMs : ℤ) : Option ℤ :=
  match q.until with
  | some text => rt.dateParse text
  | none => some nowMs

/-- `Math.min(x, y)`, where `y` is not `NaN` -/
def minimum (x y : JsNumber) : JsNumber := if x = .nan ∨ x.lt y then x else y

def clampLimit (limit : Option JsNumber) : JsNumber :=
  match limit with
  | none => .ofNat 100
  | some n => if n.le (.ofNat 0) then .ofNat 100 else minimum n (.ofNat 1000)

/-- How many elements `slice(0, n)` has at most; a clamped limit is finite or `NaN`. -/
def sliceEnd : JsNumber → ℕ
  | .fin d => d.value.floor.toNat
  | _ => 0

/-- `String(n)` of an integer -/
def integerText (n : ℤ) : JsString := (JsNumber.ofScaledInt n 0).toText

end Times

/-! ### Loki -/

section Loki

variable (rt : ObservabilityRuntime)

/-- `label="value"`, if there is a value -/
def logSelector (label : JsString) (value : Option JsString) : List JsString :=
  match value with
  | some (c :: cs) => [label ++ js "=\"" ++ (c :: cs) ++ js "\""]
  | _ => []

def buildLogQL (q : LogQuery) (opts : LogsAdapterOptions) : JsString :=
  let parts := logSelector (opts.field (js "resource") (js "container")) q.resource ++
    logSelector (opts.field (js "service") (js "app")) q.service
  let selector :=
    if parts = [] then js "\x7bjob=~\".+\"\x7d" else js "\x7b" ++ (js ", ").intercalate parts ++ js "\x7d"
  match q.filter with
  | some (c :: cs) => selector ++ js " |= " ++ [0x60] ++ (c :: cs) ++ [0x60]
  | _ => selector

def lokiRequest (q : LogQuery) (baseUrl : JsString) (opts : LogsAdapterOptions) (nowMs : ℤ) :
    LogsRequest where
  url := stripSlash baseUrl ++ js "/loki/api/v1/query_range?" ++ searchParams
    [(js "query", buildLogQL q opts),
      (js "start", integerText (sinceMs rt q nowMs*1000000)),
      (js "end", match untilMs rt q nowMs with
        | some t => integerText (t*1000000)
        | none => js "NaN"),
      (js "limit", (clampLimit q.limit).toText),
      (js "direction", js "backward")]
  headers := opts.headers
  body := none

/-- The streams of an answer of success -/
def lokiResult (answer : Except JsString HttpResponse) : Option (List JsValue) := do
  let body ← answeredBody answer
  match property (js "status") body, property (js "result") (property (js "data") body) with
  | .str status, .arr streams => if status = js "success" then some streams else none
  | _, _ => none

/-- `new Date(Math.floor(Number(nsStr) / 1_000_000)).toISOString()` -/
def lokiNsToIso (nsStr : JsString) : Option JsString :=
  match (JsValue.str nsStr).toNumber with
  | .fin d => toISOString rt (some (d.value/1000000).floor)
  | _ => none

def extractLokiLevel (labels : JsValue) (opts : LogsAdapterOptions) : Option JsString :=
  match property (opts.field (js "level") (js "level")) labels with
  | .str (c :: cs) => some (c :: cs)
  | _ => none

/-- The entry of one value of a stream, if it is a pair of texts; `none` when this throws. -/
def lokiEntry (labels : JsValue) (level : Option JsString) (value : JsValue) : Option (List LogEntry) := do
  match (← iterate value) with
  | .str nsStr :: .str message :: _ =>
    let timestamp ← lokiNsToIso rt nsStr
    some [⟨timestamp, level, message, js "loki", ownEntries labels⟩]
  | _ => some []

/-- `stream.values`, which is a method of an array -/
def streamValues : JsValue → JsValue
  | .arr _ => .function
  | stream => property (js "values") stream

def lokiStream (opts : LogsAdapterOptions) (stream : JsValue) : Option (List LogEntry) := do
  let labels := nullish (← stream.get? (js "stream")) (.obj [])
  let values ← iterate (nullish (streamValues stream) (.arr []))
  let entries ← values.mapM (lokiEntry rt labels (extractLokiLevel labels opts))
  some entries.flatten

def lokiEntries (opts : LogsAdapterOptions) (streams : List JsValue) : Option (List LogEntry) := do
  let entries ← streams.mapM (lokiStream rt opts)
  some entries.flatten

end Loki

/-! ### OpenSearch -/

section OpenSearch

variable (rt : ObservabilityRuntime)

/-- One more condition, if there is a value -/
def matching (field : JsString) (value : Option JsString) : List JsValue :=
  match value with
  | some (c :: cs) => [.obj [(js "match", .obj [(field, .str (c :: cs))])]]
  | _ => []

def buildOpenSearchQuery (q : LogQuery) (nowMs : ℤ) (opts : LogsAdapterOptions) : Option JsValue := do
  let gte ← toISOString rt (some (sinceMs rt q nowMs))
  let lte ← toISOString rt (untilMs rt q nowMs)
  let timestampField := opts.field (js "timestamp") (js "@timestamp")
  let must := [.obj [(js "range", .obj [(timestampField, .obj [(js "gte", .str gte), (js "lte", .str lte)])])]] ++
    matching (opts.field (js "resource") (js "kubernetes.pod_name")) q.resource ++
    matching (opts.field (js "service") (js "service.name")) q.service ++
    match q.filter with
    | some (c :: cs) => [.obj [(js "query_string", .obj [(js "query", .str (c :: cs)),
        (js "fields", .arr [.str (opts.field (js "message") (js "message"))])])]]
    | _ => []
  some (.obj [(js "size", .num (clampLimit q.limit)),
    (js "sort", .arr [.obj [(timestampField, .obj [(js "order", .str (js "desc"))])]]),
    (js "query", .obj [(js "bool", .obj [(js "must", .arr must)])])])

/-- `none` when the query cannot be built. -/
def openSearchRequest (q : LogQuery) (baseUrl : JsString) (opts : LogsAdapterOptions) (nowMs : ℤ) :
    Option LogsRequest := do
  let query ← buildOpenSearchQuery rt q nowMs opts
  some ⟨stripSlash baseUrl ++ js "/" ++ opts.index.getD (js "*") ++ js "/_search", opts.headers, some query⟩

/-- The hits of an answer of success -/
def openSearchHits (answer : Except JsString HttpResponse) : Option (List JsValue) := do
  let body ← answeredBody answer
  match property (js "hits") (property (js "hits") body) with
  | .arr hits => some hits
  | _ => none

/-- The text at a path of names with dots between them -/
def osField (source : JsValue) (field : JsString) : Option JsString :=
  let step (cur : JsValue) (part : JsString) : JsValue :=
    match cur with
    | .str _ => .undefined
    | cur => getOwn part (ownEntries cur)
  match (field.splitOn 0x2E).foldl step source with
  | .str s => some s
  | _ => none

/-- The entry of a hit; `none` when this throws. -/
def openSearchEntry (opts : LogsAdapterOptions) (hit : JsValue) : Option LogEntry := do
  let source := nullish (← hit.get? (js "_source")) (.obj [])
  let labels := (ownEntries source).filter fun f =>
    match f.2 with
    | .str _ => true
    | _ => false
  some ⟨(osField source (opts.field (js "timestamp") (js "@timestamp"))).getD rt.isoNow,
    osField source (opts.field (js "level") (js "log.level")),
    (osField source (opts.field (js "message") (js "message"))).getD [], js "opensearch", labels⟩

def openSearchEntries (opts : LogsAdapterOptions) (hits : List JsValue) : Option (List LogEntry) :=
  hits.mapM (openSearchEntry rt opts)

end OpenSearch

/-! ### `LogsService` -/

inductive BackendStatus
  | ok
  | unreachable
  | noEndpoint
deriving DecidableEq

/-- The entries and, for each backend, its status -/
structure LogsQueryResult where
  entries : List LogEntry
  backends : LogsBackend → BackendStatus

/-- The service with its configured endpoints; `graphStore` says whether it has a graph to discover others. -/
structure LogsService where
  endpointUrls : LogsBackend → Option JsString
  adapterOptions : LogsBackend → LogsAdapterOptions
  graphStore : Bool

namespace LogsService

variable (rt : ObservabilityRuntime) (service : LogsService)

/-- The entries of an answer of success; `none` for any other one, and when reading it throws. -/
def answeredEntries (backend : LogsBackend) (answer : Except JsString HttpResponse) :
    Option (List LogEntry) :=
  match backend with
  | .loki => (lokiResult answer).bind (lokiEntries rt (service.adapterOptions .loki))
  | .opensearch => (openSearchHits answer).bind (openSearchEntries rt (service.adapterOptions .opensearch))

/-- `lokiAdapter.query`; the result is `none` when it throws. -/
def queryLoki (q : LogQuery) (baseUrl : JsString) : Check (Option (List LogEntry)) := do
  let nowMs ← inquire .dateNow
  let answer ← inquire (.logs .loki (lokiRequest rt q baseUrl (service.adapterOptions .loki) nowMs.1))
  match lokiResult answer with
  | none => pure (some [])
  | some streams => pure (lokiEntries rt (service.adapterOptions .loki) streams)

/-- `openSearchAdapter.query`; the result is `none` when it throws. -/
def queryOpenSearch (q : LogQuery) (baseUrl : JsString) : Check (Option (List LogEntry)) := do
  let nowMs ← inquire .dateNow
  match openSearchRequest rt q baseUrl (service.adapterOptions .opensearch) nowMs.1 with
  | none => pure none
  | some request => do
    let answer ← inquire (.logs .opensearch request)
    match openSearchHits answer with
    | none => pure (some [])
    | some hits => pure (openSearchEntries rt (service.adapterOptions .opensearch) hits)

def queryBackend (q : LogQuery) (backend : LogsBackend) (url : Option JsString) :
    Check (BackendStatus × List LogEntry) :=
  match url with
  | none => pure (.noEndpoint, [])
  | some url => do
    let entries ← match backend with
      | .loki => service.queryLoki rt q url
      | .opensearch => service.queryOpenSearch rt q url
    match entries with
    | some entries => pure (.ok, entries)
    | none => pure (.unreachable, [])

def overrideUrl (backend : LogsBackend) : Option JsString :=
  match service.endpointUrls backend with
  | some (c :: cs) => some (stripSlash (c :: cs))
  | _ => none

def resolveEndpoints : Check (LogsBackend → Option JsString) :=
  if (service.overrideUrl .loki = none ∨ service.overrideUrl .opensearch = none) ∧ service.graphStore then do
    let discovered := match ← inquire (.entitiesByKind .logs) with
      | .ok services => discoverLogsEndpoints rt.toLowerCase services
      | .error _ => ⟨none, none⟩
    pure fun
      | .loki => service.overrideUrl .loki <|> discovered.loki
      | .opensearch => service.overrideUrl .opensearch <|> discovered.opensearch
  else pure service.overrideUrl

/-- `compare(a, b) <= 0` for the newest first -/
def newerFirst (a b : LogEntry) : Bool :=
  match rt.dateParse a.timestamp, rt.dateParse b.timestamp with
  | some s, some t => t ≤ s
  | _, _ => true

/-- The comparator is consistent on the list: all times parse, or no two differ. -/
def consistentTimes (l : List LogEntry) : Bool :=
  (l.all fun e => (rt.dateParse e.timestamp).isSome) || l.all fun a => l.all fun b => newerFirst rt a b

def sortEntries (l : List LogEntry) : List LogEntry :=
  if consistentTimes rt l then l.insertionSort (fun a b => newerFirst rt a b) else rt.anyOrder l

def query (q : LogQuery) : Check LogsQueryResult := do
  let resolved ← service.resolveEndpoints rt
  let loki ← service.queryBackend rt q .loki (resolved .loki)
  let opensearch ← service.queryBackend rt q .opensearch (resolved .opensearch)
  let allEntries := sortEntries rt (loki.2 ++ opensearch.2)
  pure ⟨allEntries.take (sliceEnd (clampLimit q.limit)), fun
    | .loki => loki.1
    | .opensearch => opensearch.1⟩

end LogsService

end Homelab
