import Homelab.GraphPasses

/-! The roles of services: the catalog, its signals, and the pass that writes the role of every service
that matches back into the graph. -/
namespace Homelab
open Js

/-! ### The catalog -/

inductive RoleSignal
  | imageSubstring (value : JsString)
  | imageRegex (pattern : JsString) (flags : Option JsString)
  | port (port : JsNumber)
  | label (key : JsString) (valueSubstring : Option JsString)

structure RolePattern where
  role : JsString
  signals : List RoleSignal
  confidence : JsNumber

def images (values : List String) : List RoleSignal := values.map fun s => .imageSubstring (js s)

def ports (values : List ℕ) : List RoleSignal := values.map fun n => .port (.ofNat n)

def labels (keys : List String) : List RoleSignal := keys.map fun s => .label (js s) none

def serviceRoleCatalog : List RolePattern := [
  { role := js "reverse-proxy"
    signals := images ["nginx-proxy-manager", "traefik", "caddy", "haproxy", "envoy"] ++
      labels ["traefik.enable"]
    confidence := .ofScaledInt 92 2 },
  { role := js "sso"
    signals := images ["authentik", "keycloak", "authelia", "kanidm", "dex"]
    confidence := .ofScaledInt 93 2 },
  { role := js "database"
    signals := images ["postgres", "mysql", "mariadb", "mongodb", "mongo", "cockroachdb",
        "timescaledb"] ++
      [.imageRegex (js "sqlite|clickhouse|cassandra|couchdb") (some (js "i"))] ++
      ports [5432, 3306, 27017]
    confidence := .ofScaledInt 91 2 },
  { role := js "cache"
    signals := images ["redis", "valkey", "memcached", "dragonfly"] ++
      ports [6379, 11211]
    confidence := .ofScaledInt 90 2 },
  { role := js "mcp-server"
    signals := [.imageRegex (js "(^|[/-])mcp[-_]|[-_]mcp($|[:@])") (some (js "i"))] ++
      images ["mcp-server"] ++
      labels ["com.anthropic.mcp", "mcp.server"]
    confidence := .ofScaledInt 88 2 },
  { role := js "media"
    signals := images ["plex", "jellyfin", "emby", "sonarr", "radarr", "lidarr", "readarr", "prowlarr",
        "bazarr", "whisparr", "overseerr", "requestrr", "tautulli", "transmission", "qbittorrent",
        "sabnzbd", "nzbget"] ++
      ports [32400]
    confidence := .ofScaledInt 90 2 },
  { role := js "monitoring"
    signals := images ["grafana", "prometheus", "alertmanager", "thanos", "uptime-kuma", "netdata",
        "zabbix", "influxdb", "victoria-metrics", "mimir"]
    confidence := .ofScaledInt 89 2 },
  { role := js "observability"
    signals := images ["loki", "fluent-bit", "fluentd", "logstash", "elasticsearch", "opensearch",
        "kibana", "tempo", "jaeger", "zipkin", "otelcol", "opentelemetry-collector"] ++
      [.imageRegex (js "vector[^a-z]|^vector$") (some (js "i"))]
    confidence := .ofScaledInt 90 2 },
  { role := js "secrets"
    signals := images ["vault", "infisical", "doppler", "bitwarden", "vaultwarden", "passbolt"] ++
      ports [8200]
    confidence := .ofScaledInt 91 2 },
  { role := js "dns"
    signals := images ["adguardhome", "adguard-home", "pihole", "pi-hole", "coredns", "bind9",
        "unbound"] ++
      [.imageRegex (js "technitium.*dns|dns.*technitium") (some (js "i"))] ++
      ports [53]
    confidence := .ofScaledInt 90 2 },
  { role := js "orchestration"
    signals := images ["portainer", "rancher", "yacht", "dockge", "watchtower", "ouroboros"] ++
      ports [9000, 9443]
    confidence := .ofScaledInt 89 2 },
  { role := js "queue"
    signals := images ["rabbitmq", "nats", "kafka", "activemq", "pulsar", "mosquitto"] ++
      [.imageRegex (js "emqx|hivemq") (some (js "i"))] ++
      ports [5672, 4222, 9092, 1883]
    confidence := .ofScaledInt 90 2 },
  { role := js "vcs"
    signals := images ["gitea", "forgejo", "gitlab", "gogs"]
    confidence := .ofScaledInt 92 2 },
  { role := js "code-quality"
    signals := images ["sonarqube", "sonar-community"] ++
      labels ["sonarqube.version"]
    confidence := .ofScaledInt 88 2 }]

/-! ### Signals -/

/-- What the signals ask of the texts of JavaScript. A regular expression that cannot be compiled has no
answer. -/
structure TextRuntime where
  toLowerCase : JsString → JsString
  regExpTest : (pattern flags text : JsString) → Option Bool

/-- `text.includes(part)` -/
def includes (part text : JsString) : Bool := part <:+: text

/-- The image without its digest and its tag, in small letters -/
def normalizeImageName (rt : TextRuntime) (image : JsString) : JsString :=
  let noDigest := (image.splitOn 0x40).headD image
  let noTag := (noDigest.splitOn 0x3A).headD noDigest
  rt.toLowerCase noTag

/-- `typeof attrs[k] === 'string' ? attrs[k] : ''` -/
def attributeText (k : JsString) (entity : JsValue) : JsString :=
  match property k (property (js "attributes") entity) with
  | .str s => s
  | _ => []

def inheritedKeys : List String := ["constructor", "__defineGetter__", "__defineSetter__",
  "hasOwnProperty", "__lookupGetter__", "__lookupSetter__", "isPrototypeOf", "propertyIsEnumerable",
  "toString", "valueOf", "__proto__", "toLocaleString"]

def inheritedArrayKeys : List String := ["at", "concat", "copyWithin", "fill", "find", "findIndex",
  "findLast", "findLastIndex", "lastIndexOf", "pop", "push", "reverse", "shift", "unshift", "slice",
  "sort", "splice", "includes", "indexOf", "join", "keys", "entries", "values", "forEach", "filter",
  "flat", "flatMap", "map", "every", "some", "reduce", "reduceRight", "toReversed", "toSorted",
  "toSpliced", "with"]

/-- `key in v`, of an object or an array -/
def hasKey (key : JsString) : JsValue → Bool
  | .obj fs => (fs.map Prod.fst).contains key || (inheritedKeys.map js).contains key
  | .arr es => (arrayIndex key).any (· < es.length) || key = js "length" ||
      ((inheritedKeys ++ inheritedArrayKeys).map js).contains key
  | _ => false

/-- `v[key]`, of an object or an array that has the key -/
def valueAt (key : JsString) : JsValue → JsValue
  | .arr es => ((arrayIndex key).bind fun i => es[i]?).getD .undefined
  | v => property key v

/-- `typeof p === 'string' && p.includes(part)` -/
def textIncludes (part : JsString) : JsValue → Bool
  | .str s => includes part s
  | _ => false

def evaluateLabel (key : JsString) (valueSubstring : Option JsString) (labels : JsValue) : Bool :=
  match labels with
  | .str labels =>
    if !includes key labels then false
    else valueSubstring.all fun value =>
      ((labels.splitOn 0x2C).find? fun l => key.isPrefixOf (trim l)).any (includes value)
  | labels =>
    if !hasKey key labels then false
    else valueSubstring.all fun value => textIncludes value (valueAt key labels)

def evaluateSignal (rt : TextRuntime) (signal : RoleSignal) (entity : JsValue) : Bool :=
  let image := attributeText (js "image") entity
  match signal with
  | .imageSubstring value =>
    image ≠ [] && includes (rt.toLowerCase value) (normalizeImageName rt image)
  | .imageRegex pattern flags =>
    image ≠ [] && (rt.regExpTest pattern (flags.getD (js "i")) (normalizeImageName rt image)).getD false
  | .port port =>
    match attributeOf (js "ports") entity with
    | .arr ports => ports.any (textIncludes port.toText)
    | _ => false
  | .label key valueSubstring => evaluateLabel key valueSubstring (attributeOf (js "labels") entity)

/-- The first pattern any signal of which matches -/
def classifyRole (rt : TextRuntime) (catalog : List RolePattern) (entity : JsValue) : Option RolePattern :=
  catalog.find? fun pattern => pattern.signals.any fun signal => evaluateSignal rt signal entity

/-! ### The pass -/

/-- `classify`, from its snapshot on: what it writes back of the services that match -/
def classifyWrites (rt : TextRuntime) (catalog : List RolePattern) (now : JsString)
    (snapshot : GraphDocument) : List WriteBack :=
  (entitiesByKind (js "service") snapshot).filterMap fun entity =>
    (classifyRole rt catalog entity).map fun pattern =>
      { part := .entities
        read := entity
        fields := [(js "last_seen", .str now), (js "attributes", withAnnotation entity
          [(js "role", .str pattern.role), (js "role_confidence", .num pattern.confidence)])] }

/-- What `classify` leaves, with no other writer, and whether it returns: a write that is refused
throws. -/
def classify (isDateTime : JsString → Bool) (rt : TextRuntime) (catalog : List RolePattern)
    (now : JsString) (doc : GraphDocument) : GraphDocument × Bool :=
  writeAll isDateTime (classifyWrites rt catalog now doc) doc

end Homelab
