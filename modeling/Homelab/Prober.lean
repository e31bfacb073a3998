import Homelab.BackupVerify
import Homelab.Discover
import Homelab.JsonParse
import Homelab.RoleCatalog
import Homelab.Semaphore

/-! `PlatformProber.scan` with its requests under way side by side, over every order in which they
are answered and their jobs go on. -/
namespace Homelab
open Js

/-! ### The catalog and its answers -/

inductive ExpectedResponse
  | regex (pattern : JsString) (flags : Option JsString) (confidence : JsNumber)
  | jsonPath (path : JsString) (equals : Option JsValue) (exists_ : Bool) (confidence : JsNumber)

def ExpectedResponse.confidence : ExpectedResponse → JsNumber
  | .regex _ _ confidence => confidence
  | .jsonPath _ _ _ confidence => confidence

/-- A catalog entry with all that a probe reads of it -/
structure CatalogEntry extends Fingerprint where
  timeoutMs : Option ℕ
  headers : Option Fields
  expectedResponse : ExpectedResponse

structure ProbeResponse where
  statusCode : ℕ
  body : JsString

/-- What comes of a request: a response, or an error or a time-out -/
abbrev HttpAnswer := Option ProbeResponse

structure MatchedPlatform where
  platformType : PlatformType
  ip : JsString
  port : ℕ
  protocol : Protocol
  confidence : JsNumber
  matchedAt : JsString
  responseSnippet : JsString

/-- A test of a regular expression, which has no answer when the pattern cannot be compiled; and the
double that a number literal stands for. -/
structure ProberRuntime where
  regExpTest : (pattern flags text : JsString) → Option Bool
  double : Decimal → JsNumber

/-! ### `evaluateResponse` -/

/-- `current[segment]`, of an object or an array -/
def segmentOf (segment : JsString) : JsValue → JsValue
  | .obj fs => lookupPlain fs segment
  | .arr es =>
    if segment = js "length" then .num (.ofNat es.length)
    else if (arrayIndex segment).any (· < es.length) then valueAt segment (.arr es)
    else if segment = js "__proto__" then .arr []
    else if hasKey segment (.arr es) then .function
    else .undefined
  | _ => .undefined

/-- The loop of `jsonPathLookup` -/
def lookupSegments : List JsString → JsValue → JsValue
  | [], current => current
  | segment :: segments, current =>
    match current with
    | .obj fs => lookupSegments segments (segmentOf segment (.obj fs))
    | .arr es => lookupSegments segments (segmentOf segment (.arr es))
    | _ => .undefined

/-- `jsonPathLookup` -/
def jsonPathLookup (root : JsValue) (path : JsString) : Except JsString JsValue :=
  if path = js "$" ∨ path = [] then .ok root
  else if js "$." <+: path then .ok (lookupSegments ((path.drop 2).splitOn 0x2E) root)
  else .error (js "unsupported jsonPath (must start with \"$.\" or be \"$\"): " ++ path)

/-- `value === other`; a value of `JSON.parse` is no object or array of the catalog. -/
def strictlyEqual : JsValue → JsValue → Bool
  | .undefined, .undefined => true
  | .null, .null => true
  | .bool a, .bool b => a == b
  | .num x, .num y => x.strictEq y
  | .str s, .str t => s == t
  | _, _ => false

def evaluateResponse (rt : ProberRuntime) (body : JsString) : ExpectedResponse → Bool
  | .regex pattern flags _ => (rt.regExpTest pattern (flags.getD []) body).getD false
  | .jsonPath path equals exists_ _ =>
    match parseLine rt.double body with
    | none => false
    | some parsed =>
      match jsonPathLookup parsed path with
      | .error _ => false
      | .ok value =>
        if exists_ then value.isDefined
        else
          match equals with
          | some other => strictlyEqual value other
          | none => false

/-! ### `runProbe` -/

structure ProbeJob where
  ip : JsString
  fingerprint : CatalogEntry

def proberUserAgent : JsString := js "autonomous-dev-homelab-prober/0.1"

/-- What `httpClient.get` is called with -/
structure HttpGet where
  url : JsString
  headers : Fields
  timeoutMs : ℕ
  allowSelfSigned : Bool

/-- The request of a job -/
def ProbeJob.request (job : ProbeJob) : HttpGet where
  url := ProbeRequest.url ⟨job.ip, job.fingerprint.toFingerprint⟩
  headers := spread [(js "User-Agent", .str proberUserAgent)] (job.fingerprint.headers.getD [])
  timeoutMs := job.fingerprint.timeoutMs.getD 3000
  allowSelfSigned := job.fingerprint.protocol = .https

/-- `runProbe`, from the answer on; nothing throws out of it. -/
def runProbeAnswered (rt : ProberRuntime) (job : ProbeJob) (answer : HttpAnswer) (now : JsString) :
    Option MatchedPlatform :=
  match answer with
  | none => none
  | some response =>
    if response.statusCode < 200 ∨ 300 ≤ response.statusCode then none
    else if evaluateResponse rt response.body job.fingerprint.expectedResponse then
      some {
        platformType := job.fingerprint.platformType
        ip := job.ip
        port := job.fingerprint.port
        protocol := job.fingerprint.protocol
        confidence := job.fingerprint.expectedResponse.confidence
        matchedAt := now
        responseSnippet := response.body.take 200
      }
    else none

/-- The response is a 2xx that satisfies the matcher of the entry. -/
def Matches (rt : ProberRuntime) (job : ProbeJob) (answer : HttpAnswer) : Prop :=
  ∃ response, answer = some response ∧ 200 ≤ response.statusCode ∧ response.statusCode < 300 ∧
    evaluateResponse rt response.body job.fingerprint.expectedResponse = true

/-- The match is about this job. -/
structure MatchOf (job : ProbeJob) (found : MatchedPlatform) : Prop where
  platformType : found.platformType = job.fingerprint.platformType
  ip : found.ip = job.ip
  port : found.port = job.fingerprint.port
  protocol : found.protocol = job.fingerprint.protocol
  confidence : found.confidence = job.fingerprint.expectedResponse.confidence

theorem runProbe_matches (rt : ProberRuntime) (job : ProbeJob) (answer : HttpAnswer) (now : JsString) :
    (∃ found, runProbeAnswered rt job answer now = some found ∧ MatchOf job found) ∧ Matches rt job answer ∨
      runProbeAnswered rt job answer now = none ∧ ¬ Matches rt job answer := by
  cases answer with
  | none =>
    refine .inr ⟨rfl, ?_⟩
    rintro ⟨response, hresponse, -⟩
    cases hresponse
  | some response =>
    rw [runProbeAnswered]
    split_ifs with hstatus hevaluate
    · refine .inr ⟨rfl, ?_⟩
      rintro ⟨_, ⟨⟩, hlow, hhigh, -⟩
      omega
    · refine .inl ⟨⟨_, rfl, rfl, rfl, rfl, rfl, rfl⟩, response, rfl, ?_, ?_, hevaluate⟩
      · omega
      · omega
    · refine .inr ⟨rfl, ?_⟩
      rintro ⟨_, ⟨⟩, -, -, hmatches⟩
      exact hevaluate hmatches

/-! ### `scan` -/

inductive ScanType
  | httpProbe
  | sshProbe
  | tcpConnect
deriving DecidableEq

/-- What a scan reads of a consent -/
structure ScanConsent where
  permittedPorts : List ℕ
  permittedScanTypes : List ScanType

/-- The jobs of `scan`; `error` is what it throws. -/
def scanJobs (catalog : List CatalogEntry) (cidr : JsString) (consent : ScanConsent) :
    Except JsString (List ProbeJob) :=
  if .httpProbe ∉ consent.permittedScanTypes then .ok []
  else
    let applicable := catalog.filter fun fp => fp.port ∈ consent.permittedPorts
    if applicable.length = 0 then .ok []
    else do
      let hosts ← enumerateHosts cidr
      .ok (hosts.flatMap fun ip => applicable.map fun fp => ⟨ip, fp⟩)

/-- Each pair of a host and a catalog entry whose port is permitted; none without a permitted
`http_probe` -/
def scanPairs (catalog : List CatalogEntry) (hosts : List JsString) (consent : ScanConsent) : List ProbeJob :=
  if .httpProbe ∈ consent.permittedScanTypes then
    hosts.flatMap fun ip => (catalog.filter fun fp => fp.port ∈ consent.permittedPorts).map fun fp => ⟨ip, fp⟩
  else []

theorem scanJobs_eq {catalog : List CatalogEntry} {cidr : JsString} {hosts : List JsString}
    {consent : ScanConsent} (h : enumerateHosts cidr = .ok hosts) :
    scanJobs catalog cidr consent = .ok (scanPairs catalog hosts consent) := by
  rw [scanJobs, scanPairs]
  by_cases hprobe : .httpProbe ∈ consent.permittedScanTypes
  · rw [if_neg (not_not.mpr hprobe), if_pos hprobe]
    dsimp only
    split_ifs with hnone
    · rw [List.length_eq_zero_iff] at hnone
      have hempty : hosts.flatMap (fun _ => ([] : List ProbeJob)) = [] :=
        List.flatMap_eq_nil_iff.mpr fun _ _ => rfl
      rw [hnone]
      exact congrArg _ hempty.symm
    · rw [h]
      rfl
  · rw [if_pos hprobe, if_neg hprobe]

/-! ### Runs of a scan -/

/-- The jobs of a scan behind its semaphore. Each goes on after `acquire`, before its request, after
the answer, and after `runProbe`; the requests are answered in any order, and so do the jobs go on.
-/
def scanSystem (rt : ProberRuntime) (jobs : List ProbeJob) :
    Automaton (Semaphore.State jobs.length HttpAnswer MatchedPlatform)
      (Semaphore.Event jobs.length HttpAnswer JsString) :=
  Semaphore.system fun i => runProbeAnswered rt (jobs.get i)

/-- The requests that have been issued, each with the pair that it is for -/
def issuedRequests {jobs : List ProbeJob} (s : Semaphore.State jobs.length HttpAnswer MatchedPlatform) :
    List (ProbeJob × HttpGet) := s.asked.map fun i => ((jobs.get i), (jobs.get i).request)

/-- What `scan` has returned, once `Promise.all` is fulfilled -/
def scanReturned {jobs : List ProbeJob} (s : Semaphore.State jobs.length HttpAnswer MatchedPlatform) :
    Option (List MatchedPlatform) :=
  if ∀ i, (s.phase i).isReleased = true then some s.results else none

/-- One match for each pair whose answer matches, and none for the others -/
def FoundFor (rt : ProberRuntime) (jobs : List ProbeJob) (answers : Fin jobs.length → HttpAnswer)
    (matched : List MatchedPlatform) : Prop :=
  ∃ found : Fin jobs.length → Option MatchedPlatform,
    matched.Perm ((List.finRange jobs.length).filterMap found) ∧
    ∀ i, (∃ m, found i = some m ∧ MatchOf (jobs.get i) m) ∧ Matches rt (jobs.get i) (answers i) ∨
      found i = none ∧ ¬ Matches rt (jobs.get i) (answers i)

/-- What holds of a scan after a run: no pair has more than one request, no more than `concurrency`
requests are in flight, and the run is bounded; when all that has been asked is answered and no job
can go on, the scan has returned; and then each pair has its request, and each match its pair. -/
structure ScanRight (rt : ProberRuntime) (jobs : List ProbeJob) (concurrency : ℕ)
    (events : List (Semaphore.Event jobs.length HttpAnswer JsString))
    (s : Semaphore.State jobs.length HttpAnswer MatchedPlatform) : Prop where
  once : (issuedRequests s).Subperm (jobs.map fun job => (job, job.request))
  capped : s.askers.card ≤ concurrency
  bounded : events.length ≤ 6*jobs.length
  settled : (∀ i, (s.phase i).canGoOn = false) → (∀ i, (s.phase i).isAsking = false) →
    scanReturned s = some s.results
  complete : ∀ matched, scanReturned s = some matched →
    (issuedRequests s).Perm (jobs.map fun job => (job, job.request)) ∧
      ∃ answers, (∀ i, .settle i (answers i) ∈ events) ∧ FoundFor rt jobs answers matched

theorem map_finRange (jobs : List ProbeJob) :
    (List.finRange jobs.length).map (fun i => (jobs.get i, (jobs.get i).request)) =
      jobs.map fun job => (job, job.request) := by
  calc _ = ((List.finRange jobs.length).map jobs.get).map fun job => (job, job.request) :=
    (List.map_map ..).symm
    _ = _ := by rw [List.map_get_finRange]

theorem scanReturned_iff {jobs : List ProbeJob} {s : Semaphore.State jobs.length HttpAnswer MatchedPlatform}
    {matched : List MatchedPlatform} :
    scanReturned s = some matched ↔ (∀ i, ∃ a found, s.phase i = .released a found) ∧
      s.results = matched := by
  have hreleased (p : Semaphore.Phase HttpAnswer MatchedPlatform) :
      p.isReleased = true ↔ ∃ a found, p = .released a found := by
    cases p with
    | released a found => exact iff_of_true rfl ⟨a, found, rfl⟩
    | _ =>
      refine iff_of_false Bool.false_ne_true ?_
      rintro ⟨a, found, h⟩
      cases h
  simp only [← hreleased]
  rw [scanReturned]
  split_ifs with hall
  · exact ⟨fun h => ⟨hall, Option.some_inj.mp h⟩, fun h => congrArg some h.2⟩
  · exact iff_of_false nofun fun h => hall h.1

theorem scanRight_run (rt : ProberRuntime) (jobs : List ProbeJob) {concurrency : ℕ}
    (hconcurrency : 1 ≤ concurrency)
    (events : List (Semaphore.Event jobs.length HttpAnswer JsString))
    (h : (scanSystem rt jobs).Permits Automaton.anyEvent (.start concurrency) events) :
    ScanRight rt jobs concurrency events ((scanSystem rt jobs).after (.start concurrency) events) := by
  have hlaw := Semaphore.law_run h
  constructor
  · rw [← map_finRange]
    obtain ⟨tasks, hperm, hsub⟩ := List.subperm_of_subset hlaw.once fun i _ => List.mem_finRange i
    exact ⟨_, hperm.map _, hsub.map _⟩
  · exact hlaw.askers_le
  · exact (Semaphore.length_le_work (Semaphore.law_start _ _) h).trans (Semaphore.work_start concurrency)
  · intro hidle hasking
    exact scanReturned_iff.mpr ⟨hlaw.all_released hconcurrency hidle hasking, rfl⟩
  · intro matched hreturned
    obtain ⟨hreleased, rfl⟩ := scanReturned_iff.mp hreturned
    obtain ⟨hasked, answers, notes, hanswers, hresults⟩ := Semaphore.all_answered h hreleased
    refine ⟨?_, answers, hanswers, _, hresults, fun i => ?_⟩
    · rw [← map_finRange]
      exact hasked.map _
    · exact runProbe_matches rt (jobs.get i) (answers i) (notes i)

/-- `_ping` of a Docker engine -/
def dockerEntry : CatalogEntry where
  platformType := .docker
  protocol := .http
  port := 2375
  path := js "/_ping"
  timeoutMs := none
  headers := none
  expectedResponse := .regex (js "^OK$") none (.ofNat 1)

/-- The one regular expression of the entry, and doubles that are read as they stand -/
def pingRuntime : ProberRuntime := ⟨fun pattern _ text => some (pattern = js "^OK$" ∧ text = js "OK"), .fin⟩

def pingConsent : ScanConsent := ⟨[2375], [.httpProbe]⟩

/-- The engine answers `OK`. -/
def pingRun : List (Semaphore.Event 1 HttpAnswer JsString) :=
  [.goOn 0 [], .settle 0 (some ⟨200, js "OK"⟩), .goOn 0 (js "2026-05-01T00:00:00.000Z"), .goOn 0 []]

end Homelab
