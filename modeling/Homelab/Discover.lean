import Homelab.Consent

/-! The `discover` command: which addresses it probes. Matches, the inventory entries
and the printed summary do not decide what is probed; they appear only as an
inventory call that may end the run. -/
namespace Homelab
open Js

inductive PlatformType
  | unraid
  | proxmoxVe
  | docker
  | kubernetes
  | dockerSwarm
  | portainer
  | unifi
  | truenas
deriving DecidableEq

inductive Protocol
  | http
  | https
deriving DecidableEq

def Protocol.text : Protocol → JsString
  | .http => js "http"
  | .https => js "https"

/-- A catalog entry, as far as it decides what is requested. -/
structure Fingerprint where
  platformType : PlatformType
  protocol : Protocol
  port : ℕ
  path : JsString
deriving DecidableEq

/-- `PLATFORM_FINGERPRINTS` -/
def platformFingerprints : List Fingerprint :=
  [⟨.unraid, .https, 443, js "/login"⟩,
    ⟨.proxmoxVe, .https, 8006, js "/api2/json/version"⟩,
    ⟨.docker, .http, 2375, js "/_ping"⟩,
    ⟨.kubernetes, .https, 6443, js "/version"⟩,
    ⟨.dockerSwarm, .http, 2377, js "/info"⟩,
    ⟨.unifi, .https, 8443, js "/manage/account/login"⟩,
    ⟨.truenas, .https, 443, js "/api/v2.0/system/info"⟩,
    ⟨.portainer, .https, 9443, js "/api/status"⟩]

/-- An HTTP request of the prober. -/
structure ProbeRequest where
  ip : JsString
  fingerprint : Fingerprint
deriving DecidableEq

/-- `buildUrl` -/
def ProbeRequest.url (r : ProbeRequest) : JsString :=
  r.fingerprint.protocol.text ++ js "://" ++ r.ip ++ js ":" ++
    (JsNumber.ofNat r.fingerprint.port).toText ++ r.fingerprint.path

/-! ### `PlatformProber.scan` -/

/-- `permitted_scan_types.includes('http_probe')` -/
def includesHttpProbe (scanTypes : JsValue) : Except JsString Bool :=
  match scanTypes with
  | .arr es => .ok (es.any fun
      | .str s => s == js "http_probe"
      | _ => false)
  | .str s => .ok (decide (js "http_probe" <:+: s))
  | .undefined => .error (js "Cannot read properties of undefined (reading 'includes')")
  | .null => .error (js "Cannot read properties of null (reading 'includes')")
  | _ => .error (js "consent.permitted_scan_types.includes is not a function")

/-- `new Set(permitted_ports).has(port)` -/
def permitsPort (ports : JsValue) (port : ℕ) : Bool :=
  match ports with
  | .arr es => es.any fun
      | .num x => x.strictEq (.ofNat port)
      | _ => false
  | _ => false

/-- Whether `new Set(v)` throws; a string is a set of characters. -/
def notIterable (v : JsValue) : Option JsString :=
  match v with
  | .undefined => none
  | .null => none
  | .arr _ => none
  | .str _ => none
  | .obj _ => some (js "object is not iterable (cannot read property Symbol(Symbol.iterator))")
  | v => some (v.typeof ++ js " " ++ v.coerce ++
      js " is not iterable (cannot read property Symbol(Symbol.iterator))")

/-- The requests of `scan`; each of its jobs makes one. `error` is what it throws. -/
def scan (catalog : List Fingerprint) (cidr : JsString) (consent : JsValue) :
    Except JsString (List ProbeRequest) := do
  if ← includesHttpProbe (property (js "permitted_scan_types") consent) then
    let ports := property (js "permitted_ports") consent
    match notIterable ports with
    | some message => .error message
    | none =>
      let applicable := catalog.filter fun fp => permitsPort ports fp.port
      if applicable = [] then .ok []
      else do
        let hosts ← enumerateHosts cidr
        .ok (hosts.flatMap fun ip => applicable.map fun fp => ⟨ip, fp⟩)
  else .ok []

/-- The consent permits a probe of some catalog entry. -/
def permitsProbe (catalog : List Fingerprint) (consent : JsValue) : Bool :=
  (match includesHttpProbe (property (js "permitted_scan_types") consent) with
    | .ok b => b
    | .error _ => false) &&
  catalog.any fun fp => permitsPort (property (js "permitted_ports") consent) fp.port

/-! ### `runDiscover` -/

structure DiscoverArgs where
  cidr : Option JsString
  json : Bool
  noPrompt : Bool

/-- What surrounds a run. `request` is what `requestConsent` does for a CIDR: it
throws, is rejected, or leaves a new consent file. `record` is what the inventory
calls after a scan throw, if they do. -/
structure DiscoverWorld where
  rt : ConsentRuntime
  yamlLoad : JsString → Except JsString JsValue
  consentFile : Except ErrnoException JsString
  catalog : List Fingerprint
  request : JsString → Except JsString (Option (Except ErrnoException JsString))
  record : JsString → Option JsString

/-- A finished run: its exit code or what it throws, the requests it made, whether it
prompted, and what it printed to the error stream. -/
structure DiscoverRun where
  result : Except JsString ℕ
  requests : List ProbeRequest
  prompted : Bool
  stderr : JsString

/-- The variables of the loop over the CIDRs. -/
structure DiscoverState where
  consentFile : Except ErrnoException JsString
  requests : List ProbeRequest
  prompted : Bool
  stderr : JsString
  scanned : ℕ
  failed : ℕ

def DiscoverState.finish (s : DiscoverState) (result : Except JsString ℕ) : DiscoverRun :=
  ⟨result, s.requests, s.prompted, s.stderr⟩

/-- `printError`, then `failed++` and `continue`. -/
def DiscoverState.fail (s : DiscoverState) (message : JsString) : DiscoverState :=
  { s with stderr := s.stderr ++ printError message, failed := s.failed+1 }

/-- `checkConsent(firstHostInCidr(cidr))` -/
def checkFirstHost (w : DiscoverWorld) (file : Except ErrnoException JsString) (cidr : JsString) :
    Except JsString (Option JsValue) := do
  let ip ← firstHostInCidr cidr
  checkConsent w.rt (loadConsents w.yamlLoad file) ip

/-- The scan of a CIDR and the inventory calls for its matches. -/
def scanStep (w : DiscoverWorld) (cidr : JsString) (consent : JsValue) (s : DiscoverState) :
    DiscoverRun ⊕ DiscoverState :=
  match scan w.catalog cidr consent with
  | .error message => .inr (s.fail (js "scan failed for " ++ cidr ++ js ": " ++ message))
  | .ok requests =>
    let s' := { s with requests := s.requests ++ requests, scanned := s.scanned+1 }
    match w.record cidr with
    | some message => .inl (s'.finish (.error message))
    | none => .inr s'

/-- One pass of the loop: a finished run, or the next state. -/
def discoverStep (w : DiscoverWorld) (noPrompt single : Bool) (cidr : JsString)
    (s : DiscoverState) : DiscoverRun ⊕ DiscoverState :=
  match checkFirstHost w s.consentFile cidr with
  | .error message =>
    .inr (s.fail (js "failed to check consent for " ++ cidr ++ js ": " ++ message))
  | .ok (some consent) => scanStep w cidr consent s
  | .ok none =>
    if noPrompt then
      let s' := s.fail (js "no consent for " ++ cidr ++ js "; rerun without --no-prompt to approve")
      if single then .inl (s'.finish (.ok exitNoConsent)) else .inr s'
    else
      let s := { s with prompted := true }
      match w.request cidr with
      | .error message => .inl (s.finish (.error message))
      | .ok none =>
        .inl ((s.fail (js "consent for " ++ cidr ++ js " was rejected")).finish (.ok exitNoConsent))
      | .ok (some file) =>
        let s := { s with consentFile := file }
        match checkFirstHost w s.consentFile cidr with
        | .error message => .inl (s.finish (.error message))
        | .ok none =>
          .inr (s.fail (js "consent for " ++ cidr ++ js " was approved but not retrievable"))
        | .ok (some consent) => scanStep w cidr consent s

def discoverLoop (w : DiscoverWorld) (noPrompt single : Bool) : List JsString → DiscoverState →
    DiscoverRun
  | [], s =>
    s.finish (.ok (if 0 < s.failed ∧ s.scanned = 0 then exitNoConsent
      else if 0 < s.failed then exitPartial else exitOk))
  | cidr :: rest, s =>
    match discoverStep w noPrompt single cidr s with
    | .inl run => run
    | .inr s' => discoverLoop w noPrompt single rest s'

/-- `listConsentsFromFile`, which does not look at the version. -/
def listConsents (yamlLoad : JsString → Except JsString JsValue)
    (raw : Except ErrnoException JsString) : Except JsString (List JsValue) :=
  match raw with
  | .error e => if e.code = some (js "ENOENT") then .ok [] else .error e.message
  | .ok text => do
    let parsed ← yamlLoad text
    match parsed with
    | .obj _ =>
      match property (js "consents") parsed with
      | .arr consents => .ok consents
      | _ => .ok []
    | _ => .ok []

/-- The CIDRs of the listed entries that are current. -/
def eligibleCidrs (rt : ConsentRuntime) : List JsValue → Except JsString (List JsString)
  | [] => .ok []
  | entry :: rest => do
    let _ ← readProperty entry (js "expires_at")
    let cidrs ← eligibleCidrs rt rest
    if isCurrent rt entry then .ok (entryCidr entry :: cidrs) else .ok cidrs

def DiscoverWorld.start (w : DiscoverWorld) : DiscoverState := ⟨w.consentFile, [], false, [], 0, 0⟩

def runDiscover (w : DiscoverWorld) (args : DiscoverArgs) : DiscoverRun :=
  let noPrompt := args.noPrompt || args.json
  match args.cidr with
  | some cidr =>
    if (cidrRegex cidr).isNone then
      ⟨.ok exitUsage, [], false, printError (js "invalid CIDR: " ++ cidr)⟩
    else discoverLoop w noPrompt true [cidr] w.start
  | none =>
    match listConsents w.yamlLoad w.consentFile >>= eligibleCidrs w.rt with
    | .error message => w.start.finish (.error message)
    | .ok [] => ⟨.ok exitNoConsent, [], false,
        printError (js "no consented CIDRs available; pass --cidr to scan a new range")⟩
    | .ok cidrs => discoverLoop w noPrompt false cidrs w.start

/-! ### Which hosts are probed -/

/-- Every request of a scan goes to a host of the CIDR, and the consent permits it. -/
theorem scan_sound {catalog : List Fingerprint} {cidr : JsString} {consent : JsValue}
    {rs : List ProbeRequest} {r : ProbeRequest} (h : scan catalog cidr consent = .ok rs)
    (hr : r ∈ rs) : permitsProbe catalog consent = true ∧
      ∃ hosts, enumerateHosts cidr = .ok hosts ∧ r.ip ∈ hosts := by
  unfold scan at h
  unfold permitsProbe
  cases htypes : includesHttpProbe (property (js "permitted_scan_types") consent) with
  | error message =>
    rw [htypes] at h
    cases h
  | ok b =>
    rw [htypes] at h
    cases b with
    | false =>
      cases h
      exact absurd hr List.not_mem_nil
    | true =>
      change (match notIterable _ with | some message => _ | none => _) = _ at h
      split at h
      · cases h
      · change (if _ then _ else _) = _ at h
        split_ifs at h with hnone
        · cases h
          exact absurd hr List.not_mem_nil
        · cases hhosts : enumerateHosts cidr with
          | error message =>
            rw [hhosts] at h
            cases h
          | ok hosts =>
            rw [hhosts] at h
            obtain rfl := Except.ok.inj h
            obtain ⟨ip, hip, hmap⟩ := List.mem_flatMap.mp hr
            obtain ⟨fp, hfp, rfl⟩ := List.mem_map.mp hmap
            obtain ⟨hmem, hport⟩ := List.mem_filter.mp hfp
            exact ⟨List.any_eq_true.mpr ⟨fp, hmem, hport⟩, hosts, rfl, hip⟩

/-- A scan that is permitted sends a request to every host of the CIDR. -/
theorem scan_complete {catalog : List Fingerprint} {cidr : JsString} {consent : JsValue}
    {hosts : List JsString} (hp : permitsProbe catalog consent = true)
    (hhosts : enumerateHosts cidr = .ok hosts) :
    ∃ rs, scan catalog cidr consent = .ok rs ∧ ∀ ip ∈ hosts, ∃ r ∈ rs, r.ip = ip := by
  unfold permitsProbe at hp
  rw [Bool.and_eq_true, List.any_eq_true] at hp
  obtain ⟨htypes, fp, hfp, hport⟩ := hp
  cases hincl : includesHttpProbe (property (js "permitted_scan_types") consent) with
  | error message =>
    rw [hincl] at htypes
    cases htypes
  | ok b =>
    rw [hincl] at htypes
    obtain rfl : b = true := htypes
    set applicable := catalog.filter fun fp =>
      permitsPort (property (js "permitted_ports") consent) fp.port with happ
    have hmem : fp ∈ applicable := List.mem_filter.mpr ⟨hfp, hport⟩
    -- a port can only be permitted by a list of ports
    have hiter : notIterable (property (js "permitted_ports") consent) = none := by
      cases hports : property (js "permitted_ports") consent <;> rw [hports] at hport <;>
        first | rfl | cases hport
    refine ⟨hosts.flatMap fun ip => applicable.map fun fp => ⟨ip, fp⟩, ?_, fun ip hip => ?_⟩
    · unfold scan
      rw [hincl]
      change (match notIterable _ with | some message => _ | none => _) = _
      rw [hiter]
      change (if applicable = [] then _ else _) = _
      rw [if_neg (List.ne_nil_of_mem hmem), hhosts]
      rfl
    · exact ⟨⟨ip, fp⟩, List.mem_flatMap.mpr ⟨ip, hip, List.mem_map_of_mem hmem⟩, rfl⟩

/-- The requests of a scan, none when it throws. -/
def scanRequests (w : DiscoverWorld) (cidr : JsString) (consent : JsValue) : List ProbeRequest :=
  match scan w.catalog cidr consent with
  | .ok rs => rs
  | .error _ => []

/-- A run on one CIDR that does not prompt scans it with the entry found for its first
host, or not at all. -/
theorem runDiscover_requests {w : DiscoverWorld} {args : DiscoverArgs} {cidr : JsString}
    (hcidr : args.cidr = some cidr) (hprompt : (runDiscover w args).prompted = false) :
    (runDiscover w args).requests =
      match checkFirstHost w w.consentFile cidr with
      | .ok (some consent) => scanRequests w cidr consent
      | _ => [] := by
  unfold runDiscover at hprompt ⊢
  rw [hcidr] at hprompt ⊢
  dsimp only at hprompt ⊢
  -- a block the command refuses up front has no first host either, so both sides ask for nothing
  by_cases hregex : (cidrRegex cidr).isNone = true
  · have hfirst : checkFirstHost w w.consentFile cidr = .error (js "invalid CIDR: " ++ cidr) := by
      rw [checkFirstHost, firstHostInCidr, Option.isNone_iff_eq_none.mp hregex]
      rfl
    rw [if_pos hregex, hfirst]
  · rw [if_neg hregex] at hprompt ⊢
    simp only [discoverLoop, discoverStep, DiscoverWorld.start] at hprompt ⊢
    cases hfirst : checkFirstHost w w.consentFile cidr with
    | error message => rfl
    | ok found =>
      rw [hfirst] at hprompt
      cases found with
      | some consent =>
        simp only [scanStep, scanRequests]
        cases scan w.catalog cidr consent with
        | error message => rfl
        | ok rs =>
          cases w.record cidr <;> rfl
      | none =>
        by_cases hno : (args.noPrompt || args.json) = true
        · simp only [hno, ↓reduceIte]
          rfl
        · -- every run from here on has prompted
          simp only [hno, Bool.false_eq_true, ↓reduceIte] at hprompt
          cases hreq : w.request cidr with
          | error message =>
            rw [hreq] at hprompt
            cases hprompt
          | ok answer =>
            rw [hreq] at hprompt
            cases answer with
            | none => cases hprompt
            | some file =>
              dsimp only at hprompt
              cases hagain : checkFirstHost w file cidr with
              | error message =>
                rw [hagain] at hprompt
                cases hprompt
              | ok found =>
                rw [hagain] at hprompt
                cases found with
                | none => cases hprompt
                | some consent =>
                  simp only [scanStep] at hprompt
                  cases hscan : scan w.catalog cidr consent with
                  | error message =>
                    rw [hscan] at hprompt
                    cases hprompt
                  | ok rs =>
                    rw [hscan] at hprompt
                    cases hrecord : w.record cidr <;> rw [hrecord] at hprompt <;> cases hprompt

/-! ### When every probed host is covered -/

/-- The entries of the consent file, none when it does not load. -/
def DiscoverWorld.entries (w : DiscoverWorld) : List JsValue :=
  match loadConsents w.yamlLoad w.consentFile with
  | .ok entries => entries
  | .error _ => []

/-- The entry found for the first host permits a probe of a CIDR whose hosts can be enumerated. -/
def mayProbe (w : DiscoverWorld) (cidr : JsString) : Bool :=
  (match checkFirstHost w w.consentFile cidr with
    | .ok (some consent) => permitsProbe w.catalog consent
    | _ => false) &&
  (match cidrRegex cidr with
    | some (octets, _) => octetsInRange octets
    | none => false)

/-- The block of the CIDR can be cut into halves until each piece lies in the CIDR of one
current entry, or is an address that is not a host. -/
def rangeConsented (w : DiscoverWorld) (cidr : JsString) : Bool :=
  match cidrRegex cidr with
  | some (octets, len) =>
    let network := packOctets octets &&& prefixMask len
    Net.tiled (currentBlocks w.rt w.entries) (isReserved network len) (32-len) network.toNat
  | none => true

theorem rangeConsented_iff {w : DiscoverWorld} {cidr : JsString} {octets : ℕ × ℕ × ℕ × ℕ} {len : ℕ}
    {hosts : List JsString} (hregex : cidrRegex cidr = some (octets, len))
    (hrange : octetsInRange octets = true) (hhosts : enumerateHosts cidr = .ok hosts) :
    rangeConsented w cidr = true ↔ ∀ ip ∈ hosts, Consented w.rt w.entries ip := by
  obtain ⟨hosts', hhosts', hmem⟩ := mem_enumerateHosts hregex hrange
  obtain rfl : hosts = hosts' := Except.ok.inj (hhosts.symm.trans hhosts')
  have hmasked := and_prefixMask_toNat (packOctets octets) len
  have hbroadcast := broadcast_toNat (packOctets octets) (cidrRegex_le hregex)
  simp only [rangeConsented, hregex]
  generalize packOctets octets &&& prefixMask len = network at hmem hmasked hbroadcast
  have halign : network.toNat%2^(32-len) = 0 := by rw [hmasked, Nat.mul_mod_left]
  have hbound : network.toNat+2^(32-len) ≤ 2^32 := by
    have hlt := (network ||| ~~~prefixMask len).isLt
    have hpos : 0 < 2^(32-len) := Nat.two_pow_pos _
    omega
  rw [Net.tiled_iff _ _ _ _ halign]
  constructor
  · intro h ip hip
    obtain ⟨n, rfl, h1, h2, hreserved⟩ := (hmem ip).mp hip
    rcases h n.toNat h1 h2 with hskip | hblock
    · rw [hreserved] at hskip
      cases hskip
    · exact (consented_iff _ _ n).mpr hblock
  · intro h x h1 h2
    have hx : (BitVec.ofNat 32 x).toNat = x := by
      rw [BitVec.toNat_ofNat]
      apply Nat.mod_eq_of_lt
      omega
    by_cases hreserved : isReserved network len x = true
    · exact Or.inl hreserved
    · refine Or.inr ?_
      have hcons := (consented_iff w.rt w.entries (BitVec.ofNat 32 x)).mp
        (h _ ((hmem _).mpr ⟨BitVec.ofNat 32 x, rfl, by rwa [hx], by rwa [hx], by
          rw [hx]
          exact Bool.eq_false_of_not_eq_true hreserved⟩))
      rwa [hx] at hcons

/-- A run on one CIDR that does not prompt keeps to consented hosts exactly when it may
not probe at all, or every piece of the requested block lies in a current entry. -/
theorem covered_iff_tiled {w : DiscoverWorld} {args : DiscoverArgs} {cidr : JsString}
    (hcidr : args.cidr = some cidr) (hprompt : (runDiscover w args).prompted = false) :
    (∀ r ∈ (runDiscover w args).requests, Consented w.rt w.entries r.ip) ↔
      (mayProbe w cidr = true → rangeConsented w cidr = true) := by
  rw [runDiscover_requests hcidr hprompt]
  constructor
  · intro h hmay
    simp only [mayProbe, Bool.and_eq_true] at hmay
    obtain ⟨hcheck, hrange⟩ := hmay
    split at hcheck
    · next consent hfirst =>
      split at hrange
      · next octets len hregex =>
        obtain ⟨hosts, hhosts, _⟩ := mem_enumerateHosts hregex hrange
        obtain ⟨rs, hscan, hall⟩ := scan_complete hcheck hhosts
        rw [hfirst] at h
        simp only [scanRequests, hscan] at h
        apply (rangeConsented_iff hregex hrange hhosts).mpr
        intro ip hip
        obtain ⟨r, hr, rfl⟩ := hall ip hip
        exact h r hr
      · cases hrange
    · cases hcheck
  · intro h r hr
    split at hr
    · next consent hfirst =>
      unfold scanRequests at hr
      split at hr
      · next rs hscan =>
        obtain ⟨hpermit, hosts, hhosts, hip⟩ := scan_sound hscan hr
        obtain ⟨octets, len, hregex, hrange⟩ : ∃ octets len, cidrRegex cidr = some (octets, len) ∧
            octetsInRange octets = true := by
          unfold enumerateHosts at hhosts
          split at hhosts
          · cases hhosts
          · next octets len hregex =>
            split_ifs at hhosts with hrange
            all_goals exact ⟨octets, len, hregex, hrange⟩
        have hmay : mayProbe w cidr = true := by
          simp only [mayProbe, hfirst, hregex, hpermit, hrange, Bool.and_self]
        exact (rangeConsented_iff hregex hrange hhosts).mp (h hmay) r.ip hip
      · exact absurd hr List.not_mem_nil
    · exact absurd hr List.not_mem_nil

theorem discover_covered_iff (w : DiscoverWorld) (args : DiscoverArgs) (cidr : JsString)
    (hcidr : args.cidr = some cidr) (hprompt : (runDiscover w args).prompted = false) :
    (∀ r ∈ (runDiscover w args).requests, Consented w.rt w.entries r.ip) ↔
      (mayProbe w cidr = true → rangeConsented w cidr = true) :=
  covered_iff_tiled hcidr hprompt

/-- A consent for one address. -/
def sampleConsent (cidr : JsString) : JsValue :=
  .obj [(js "cidr", .str cidr), (js "approved_at", .str (js "2026-01-01T00:00:00.000Z")),
    (js "expires_at", .str (js "2027-01-01T00:00:00.000Z")),
    (js "permitted_ports", .arr [.num (.ofNat 443)]),
    (js "permitted_scan_types", .arr [.str (js "http_probe")])]

/-- A consent file with that entry, read in the middle of 2026. -/
def sampleWorld (cidr : JsString) : DiscoverWorld where
  rt :=
    { now := 1782864000000
      networkFingerprint := js "route=10.0.0.1;dns="
      dateParse := fun s =>
        if s = js "2027-01-01T00:00:00.000Z" then some 1798761600000 else none }
  yamlLoad _ := .ok (.obj [(js "version", .str (js "1.0")),
    (js "consents", .arr [sampleConsent cidr])])
  consentFile := .ok (js "version: '1.0'\nconsents: [...]")
  catalog := platformFingerprints
  request _ := .ok none
  record _ := none

theorem discover_covered_iff_single :
    (∀ r ∈ (runDiscover (sampleWorld (js "10.0.0.0/30")) ⟨some (js "10.0.0.0/30"), false, true⟩).requests,
      Consented (sampleWorld (js "10.0.0.0/30")).rt (sampleWorld (js "10.0.0.0/30")).entries r.ip) ↔
      (mayProbe (sampleWorld (js "10.0.0.0/30")) (js "10.0.0.0/30") = true →
        rangeConsented (sampleWorld (js "10.0.0.0/30")) (js "10.0.0.0/30") = true) :=
  discover_covered_iff _ ⟨some (js "10.0.0.0/30"), false, true⟩ _ rfl (by decide)

/-- With consent for 10.0.0.1 alone, `--cidr 10.0.0.0/30` also probes 10.0.0.2. -/
theorem discover_probes_beyond : ¬ ∀ (w : DiscoverWorld) (args : DiscoverArgs) (cidr : JsString),
    args.cidr = some cidr → (runDiscover w args).prompted = false →
      ∀ r ∈ (runDiscover w args).requests, Consented w.rt w.entries r.ip := by
  intro h
  have hall := h (sampleWorld (js "10.0.0.1/32")) ⟨some (js "10.0.0.0/30"), false, true⟩
    (js "10.0.0.0/30") rfl (by decide)
  have htiled := (covered_iff_tiled (w := sampleWorld (js "10.0.0.1/32")) rfl (by decide)).mp hall
    (by decide)
  revert htiled
  decide

end Homelab
