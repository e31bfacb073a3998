import Homelab.FailingMap
import Homelab.OnboardingGaps

/-! When the adapters of the log backends throw instead of returning entries: on the time to which a query
goes, and on what the backends answer. -/
namespace Homelab
open Js Dialogue FailingMap

/-- A number of milliseconds that a `Date` can hold -/
def InDateRange (ms : ℤ) : Prop := ms.natAbs ≤ 8640000000000000

theorem toISOString_some {rt : ObservabilityRuntime} {ms : Option ℤ} :
    (∃ text, toISOString rt ms = some text) ↔ ∃ t, ms = some t ∧ InDateRange t := by
  cases ms with
  | none => exact iff_of_false (by simp [toISOString]) (by simp)
  | some t =>
    by_cases ht : InDateRange t
    · exact iff_of_true ⟨rt.isoText t, if_pos ht⟩ ⟨t, rfl, ht⟩
    · have hthrows : toISOString rt (some t) = none := if_neg ht
      refine iff_of_false ?_ ?_
      · rw [hthrows]
        simp
      · rintro ⟨_, heq, hrange⟩
        cases heq
        exact ht hrange

/-! ### What can be read of Loki -/

section Loki

variable {rt : ObservabilityRuntime} {opts : LogsAdapterOptions}

/-- The text is a number of nanoseconds that a `Date` can hold. -/
def IsTime (nsStr : JsString) : Prop :=
  ∃ d, (JsValue.str nsStr).toNumber = .fin d ∧ InDateRange (d.value/1000000).floor

/-- A value of a stream that is a list or a text; when it begins with two texts, the first is a time. -/
def ReadableValue (value : JsValue) : Prop :=
  ∃ items, iterate value = some items ∧
    ∀ nsStr message rest, items = .str nsStr :: .str message :: rest → IsTime nsStr

/-- A stream that has its values in a list or a text, or has none -/
structure ReadableStream (stream : JsValue) : Prop where
  present : stream ≠ .undefined ∧ stream ≠ .null
  values : ∃ values, iterate (nullish (streamValues stream) (.arr [])) = some values ∧
    ∀ value ∈ values, ReadableValue value

theorem lokiNsToIso_some {nsStr : JsString} :
    (∃ text, lokiNsToIso rt nsStr = some text) ↔ IsTime nsStr := by
  rw [lokiNsToIso, IsTime]
  cases (JsValue.str nsStr).toNumber with
  | fin d =>
    dsimp only
    rw [toISOString_some]
    constructor
    · rintro ⟨t, heq, ht⟩
      cases heq
      exact ⟨d, rfl, ht⟩
    · rintro ⟨_, heq, ht⟩
      cases heq
      exact ⟨_, rfl, ht⟩
  | _ => exact iff_of_false (by simp) (by simp)

theorem lokiEntry_some {labels : JsValue} {level : Option JsString} {value : JsValue} :
    (∃ entries, lokiEntry rt labels level value = some entries) ↔ ReadableValue value := by
  rw [lokiEntry, ReadableValue]
  cases hitems : iterate value with
  | none => exact iff_of_false (by simp) (by simp)
  | some items =>
    simp only [Option.bind_eq_bind, Option.bind_some, Option.some.injEq, exists_eq_left']
    split
    · rename_i nsStr message rest
      constructor
      · rintro ⟨entries, h⟩ nsStr' message' rest' heq
        cases heq
        obtain ⟨timestamp, htime, -⟩ := Option.bind_eq_some_iff.mp h
        exact lokiNsToIso_some.mp ⟨timestamp, htime⟩
      · intro h
        obtain ⟨timestamp, htime⟩ := lokiNsToIso_some.mpr (h nsStr message rest rfl)
        exact ⟨_, Option.bind_eq_some_iff.mpr ⟨timestamp, htime, rfl⟩⟩
    · rename_i hother
      exact iff_of_true ⟨[], rfl⟩ fun nsStr message rest heq => absurd heq (hother nsStr message rest)

theorem lokiStream_some {stream : JsValue} :
    (∃ entries, lokiStream rt opts stream = some entries) ↔ ReadableStream stream := by
  -- reading a property throws on `null` and `undefined` only
  have hpresent : (∃ v, stream.get? (js "stream") = some v) ↔ stream ≠ .undefined ∧ stream ≠ .null := by
    cases stream <;> simp [JsValue.get?]
  constructor
  · rintro ⟨entries, h⟩
    obtain ⟨v, hv, h⟩ := Option.bind_eq_some_iff.mp h
    obtain ⟨values, hvalues, h⟩ := Option.bind_eq_some_iff.mp h
    obtain ⟨found, hfound, -⟩ := Option.bind_eq_some_iff.mp h
    have hall := mapM_some_iff.mp ⟨found, hfound⟩
    exact ⟨hpresent.mp ⟨v, hv⟩, values, hvalues, fun value hvalue => lokiEntry_some.mp (hall value hvalue)⟩
  · rintro ⟨hne, values, hvalues, hall⟩
    obtain ⟨v, hv⟩ := hpresent.mpr hne
    have hread : ∀ value ∈ values, ∃ entries,
        lokiEntry rt (nullish v (.obj [])) (extractLokiLevel (nullish v (.obj [])) opts) value = some entries :=
      fun value hvalue => lokiEntry_some.mpr (hall value hvalue)
    obtain ⟨found, hfound⟩ := mapM_some_iff.mpr hread
    refine ⟨found.flatten, Option.bind_eq_some_iff.mpr ⟨v, hv, ?_⟩⟩
    exact Option.bind_eq_some_iff.mpr ⟨values, hvalues, Option.bind_eq_some_iff.mpr ⟨found, hfound, rfl⟩⟩

theorem lokiEntries_some {streams : List JsValue} :
    (∃ entries, lokiEntries rt opts streams = some entries) ↔ ∀ stream ∈ streams, ReadableStream stream := by
  have hflatten : (∃ entries, lokiEntries rt opts streams = some entries) ↔
      ∃ found, streams.mapM (lokiStream rt opts) = some found := by
    rw [lokiEntries]
    constructor
    · rintro ⟨entries, h⟩
      obtain ⟨found, hfound, -⟩ := Option.bind_eq_some_iff.mp h
      exact ⟨found, hfound⟩
    · rintro ⟨found, hfound⟩
      exact ⟨found.flatten, Option.bind_eq_some_iff.mpr ⟨found, hfound, rfl⟩⟩
  rw [hflatten, mapM_some_iff]
  exact forall₂_congr fun stream _ => lokiStream_some

/-- Each pair of texts of the streams has its entry. -/
def KeepsPairs (rt : ObservabilityRuntime) (streams : List JsValue) (entries : List LogEntry) : Prop :=
  ∀ stream ∈ streams, ∀ values, iterate (nullish (streamValues stream) (.arr [])) = some values →
    ∀ value ∈ values, ∀ nsStr message rest, iterate value = some (.str nsStr :: .str message :: rest) →
      ∃ e ∈ entries, lokiNsToIso rt nsStr = some e.timestamp ∧ e.message = message

theorem lokiEntries_keeps {streams : List JsValue} {entries : List LogEntry}
    (h : lokiEntries rt opts streams = some entries) : KeepsPairs rt streams entries := by
  intro stream hstream values hvalues value hvalue nsStr message rest hitems
  obtain ⟨found, hfound, hflat⟩ := Option.bind_eq_some_iff.mp h
  cases hflat
  obtain ⟨ofStream, hofStream, hread⟩ := mem_of_mapM hfound hstream
  obtain ⟨v, hv, hread⟩ := Option.bind_eq_some_iff.mp hread
  obtain ⟨values', hvalues', hread⟩ := Option.bind_eq_some_iff.mp hread
  cases hvalues.symm.trans hvalues'
  obtain ⟨found', hfound', hflat⟩ := Option.bind_eq_some_iff.mp hread
  cases hflat
  obtain ⟨ofValue, hofValue, hread⟩ := mem_of_mapM hfound' hvalue
  simp only [lokiEntry, hitems, Option.bind_eq_bind, Option.bind_some] at hread
  obtain ⟨timestamp, htime, hentry⟩ := Option.bind_eq_some_iff.mp hread
  cases hentry
  exact ⟨_, List.mem_flatten.mpr ⟨_, hofStream, List.mem_flatten.mpr ⟨_, hofValue, List.mem_cons_self⟩⟩, htime, rfl⟩

end Loki

/-! ### What can be asked and read of OpenSearch -/

section OpenSearch

variable {rt : ObservabilityRuntime} {opts : LogsAdapterOptions} {q : LogQuery} {nowMs : EpochMs}

/-- `Date.parse` gives times that a `Date` can hold. -/
def DatesInRange (rt : ObservabilityRuntime) : Prop := ∀ text t, rt.dateParse text = some t → InDateRange t

theorem durationMs_nonneg {value : JsString} {ms : ℤ} (h : durationMs value = some ms) : 0 ≤ ms := by
  unfold durationMs at h
  split at h
  · cases h
  · cases h
    omega
  · cases h
    omega
  · cases h
    omega
  · cases h
    omega
  · cases h

theorem sinceMs_inRange (hdates : DatesInRange rt) : InDateRange (sinceMs rt q nowMs.1) := by
  have hnow := nowMs.2
  -- going back by the longest lookback stays in the range, as the clock is after 1970
  have hlookback : maxLookbackMs = 604800000 := by decide
  have hparsed (value : JsString) : InDateRange (parseSinceMs rt value nowMs.1) := by
    rw [parseSinceMs, InDateRange, hlookback]
    cases hduration : durationMs value with
    | some ms =>
      have hms := durationMs_nonneg hduration
      dsimp only
      omega
    | none =>
      dsimp only
      cases hdate : rt.dateParse value with
      | some t =>
        have ht : t.natAbs ≤ 8640000000000000 := hdates _ _ hdate
        dsimp only
        omega
      | none =>
        dsimp only
        omega
  rw [sinceMs]
  cases q.since with
  | some since => exact hparsed since
  | none =>
    rw [InDateRange]
    dsimp only
    omega

/-- The time to which the query goes can be read, if there is one. -/
def ReadableUntil (rt : ObservabilityRuntime) (q : LogQuery) : Prop :=
  ∀ text, q.until = some text → ∃ t, rt.dateParse text = some t

theorem untilMs_some (hdates : DatesInRange rt) :
    (∃ text, toISOString rt (untilMs rt q nowMs.1) = some text) ↔ ReadableUntil rt q := by
  rw [toISOString_some, untilMs, ReadableUntil]
  cases q.until with
  | none =>
    have hnow : InDateRange nowMs.1 := nowMs.2
    exact iff_of_true ⟨_, rfl, hnow⟩ fun text h => by cases h
  | some text =>
    constructor
    · rintro ⟨t, ht, -⟩ text' heq
      cases heq
      exact ⟨t, ht⟩
    · intro h
      obtain ⟨t, ht⟩ := h text rfl
      exact ⟨t, ht, hdates _ _ ht⟩

theorem openSearchRequest_some (hdates : DatesInRange rt) (url : JsString) :
    (∃ request, openSearchRequest rt q url opts nowMs.1 = some request) ↔ ReadableUntil rt q := by
  obtain ⟨gte, hgte⟩ : ∃ gte, toISOString rt (some (sinceMs rt q nowMs.1)) = some gte :=
    toISOString_some.mpr ⟨_, rfl, sinceMs_inRange hdates⟩
  have huntil : (∃ lte, toISOString rt (untilMs rt q nowMs.1) = some lte) ↔ ReadableUntil rt q := untilMs_some hdates
  rw [← huntil]
  constructor
  · rintro ⟨request, h⟩
    obtain ⟨query, hquery, -⟩ := Option.bind_eq_some_iff.mp h
    obtain ⟨since, -, hrest⟩ := Option.bind_eq_some_iff.mp hquery
    obtain ⟨lte, hlte, -⟩ := Option.bind_eq_some_iff.mp hrest
    exact ⟨lte, hlte⟩
  · rintro ⟨lte, hlte⟩
    obtain ⟨query, hquery⟩ : ∃ query, buildOpenSearchQuery rt q nowMs.1 opts = some query :=
      ⟨_, Option.bind_eq_some_iff.mpr ⟨gte, hgte, Option.bind_eq_some_iff.mpr ⟨lte, hlte, rfl⟩⟩⟩
    exact ⟨_, Option.bind_eq_some_iff.mpr ⟨query, hquery, rfl⟩⟩

theorem openSearchEntry_some {hit : JsValue} :
    (∃ e, openSearchEntry rt opts hit = some e) ↔ hit ≠ .undefined ∧ hit ≠ .null := by
  have hpresent : (∃ v, hit.get? (js "_source") = some v) ↔ hit ≠ .undefined ∧ hit ≠ .null := by
    cases hit <;> simp [JsValue.get?]
  rw [← hpresent]
  constructor
  · rintro ⟨e, h⟩
    obtain ⟨v, hv, -⟩ := Option.bind_eq_some_iff.mp h
    exact ⟨v, hv⟩
  · rintro ⟨v, hv⟩
    exact ⟨_, Option.bind_eq_some_iff.mpr ⟨v, hv, rfl⟩⟩

/-- Each hit has its entry. -/
def KeepsHits (rt : ObservabilityRuntime) (opts : LogsAdapterOptions) (hits : List JsValue)
    (entries : List LogEntry) : Prop :=
  ∀ hit ∈ hits, ∃ e ∈ entries, openSearchEntry rt opts hit = some e

end OpenSearch

/-! ### The adapters -/

variable (rt : ObservabilityRuntime) (service : LogsService) (q : LogQuery)

/-- The query of a backend's adapter -/
def LogsService.queryAdapter (url : JsString) : LogsBackend → Check (Option (List LogEntry))
  | .loki => service.queryLoki rt q url
  | .opensearch => service.queryOpenSearch rt q url

/-- What is well formed in an answer of success is among the entries. -/
def KeepsWellFormed (answer : Except JsString HttpResponse) (entries : List LogEntry) : LogsBackend → Prop
  | .loki => ∀ streams, lokiResult answer = some streams → KeepsPairs rt streams entries
  | .opensearch => ∀ hits, openSearchHits answer = some hits →
      KeepsHits rt (service.adapterOptions .opensearch) hits entries

/-- The query resolves with entries, and what is malformed in the answer takes nothing else away. -/
def QueryResolves (backend : LogsBackend) (log : ObservabilityLog) (r : Except JsString (Option (List LogEntry))) :
    Prop :=
  ∃ entries, r = .ok (some entries) ∧
    ∀ answer, (backend, answer) ∈ logsAnswers log → KeepsWellFormed rt service answer entries backend

/-- The query and the answer are such that nothing in them makes the adapter throw. -/
def ReadableQuery (log : ObservabilityLog) : LogsBackend → Prop
  | .loki => ∀ answer, (.loki, answer) ∈ logsAnswers log → ∀ streams, lokiResult answer = some streams →
      ∀ stream ∈ streams, ReadableStream stream
  | .opensearch => ReadableUntil rt q ∧
      ∀ answer, (.opensearch, answer) ∈ logsAnswers log → ∀ hits, openSearchHits answer = some hits →
        ∀ hit ∈ hits, hit ≠ .undefined ∧ hit ≠ .null

variable {rt service q} {log : ObservabilityLog} {r : Except JsString (Option (List LogEntry))} {url : JsString}

theorem mem_logsAnswers_pair {backend : LogsBackend} {nowMs : EpochMs} {request : LogsRequest}
    {answer answer' : Except JsString HttpResponse} :
    (backend, answer') ∈ logsAnswers [⟨.dateNow, nowMs⟩, ⟨.logs backend request, answer⟩] ↔ answer' = answer := by
  have hanswers : logsAnswers [(⟨.dateNow, nowMs⟩ : Exchange ObservabilityReply), ⟨.logs backend request, answer⟩] =
      [(backend, answer)] := rfl
  rw [hanswers, List.mem_singleton, Prod.mk.injEq, and_iff_right rfl]

theorem queryLoki_resolves (h : Talks anyReply (service.queryLoki rt q url) log r) :
    QueryResolves rt service .loki log r ↔ ReadableQuery rt q log .loki := by
  obtain ⟨nowMs, rest, hrest, rfl⟩ := talks_inquire_bind h
  obtain ⟨answer, last, hlast, rfl⟩ := talks_inquire_bind hrest
  have hlog : last = [] ∧ r = .ok ((lokiResult answer).elim (some [])
      (lokiEntries rt (service.adapterOptions .loki))) := by
    cases hstreams : lokiResult answer with
    | none =>
      rw [hstreams] at hlast
      exact talks_done.mp hlast
    | some streams =>
      rw [hstreams] at hlast
      exact talks_done.mp hlast
  obtain ⟨rfl, rfl⟩ := hlog
  simp only [QueryResolves, ReadableQuery, mem_logsAnswers_pair, forall_eq, KeepsWellFormed, Except.ok.injEq]
  -- an answer without streams gives no entries, and nothing in it is read
  cases hstreams : lokiResult answer with
  | none => exact iff_of_true ⟨[], rfl, fun streams h => by cases h⟩ fun streams h => by cases h
  | some streams =>
    simp only [Option.elim_some, Option.some.injEq, forall_eq']
    rw [← lokiEntries_some]
    constructor
    · rintro ⟨entries, hentries, -⟩
      exact ⟨entries, hentries⟩
    · rintro ⟨entries, hentries⟩
      exact ⟨entries, hentries, lokiEntries_keeps hentries⟩

theorem queryOpenSearch_resolves (hdates : DatesInRange rt)
    (h : Talks anyReply (service.queryOpenSearch rt q url) log r) :
    QueryResolves rt service .opensearch log r ↔ ReadableQuery rt q log .opensearch := by
  obtain ⟨nowMs, rest, hrest, rfl⟩ := talks_inquire_bind h
  have hrequests : (∃ request, openSearchRequest rt q url (service.adapterOptions .opensearch) nowMs.1 =
      some request) ↔ ReadableUntil rt q := openSearchRequest_some hdates url
  cases hrequest : openSearchRequest rt q url (service.adapterOptions .opensearch) nowMs.1 with
  | none =>
    rw [hrequest] at hrest hrequests
    obtain ⟨rfl, rfl⟩ := talks_done.mp hrest
    -- the query is thrown before anything is sent
    refine iff_of_false ?_ fun hread => ?_
    · rintro ⟨entries, heq, -⟩
      cases heq
    · obtain ⟨request, heq⟩ := hrequests.mpr hread.1
      cases heq
  | some request =>
    rw [hrequest] at hrest hrequests
    have huntil : ReadableUntil rt q := hrequests.mp ⟨request, rfl⟩
    obtain ⟨answer, last, hlast, rfl⟩ := talks_inquire_bind hrest
    have hlog : last = [] ∧ r = .ok ((openSearchHits answer).elim (some [])
        (openSearchEntries rt (service.adapterOptions .opensearch))) := by
      cases hhits : openSearchHits answer with
      | none =>
        rw [hhits] at hlast
        exact talks_done.mp hlast
      | some hits =>
        rw [hhits] at hlast
        exact talks_done.mp hlast
    obtain ⟨rfl, rfl⟩ := hlog
    simp only [QueryResolves, ReadableQuery, mem_logsAnswers_pair, forall_eq, KeepsWellFormed, Except.ok.injEq]
    cases hhits : openSearchHits answer with
    | none => exact iff_of_true ⟨[], rfl, fun hits h => by cases h⟩ ⟨huntil, fun hits h => by cases h⟩
    | some hits =>
      simp only [Option.elim_some, Option.some.injEq, forall_eq']
      have hread : (∀ hit ∈ hits, ∃ e, openSearchEntry rt (service.adapterOptions .opensearch) hit = some e) ↔
          ∀ hit ∈ hits, hit ≠ .undefined ∧ hit ≠ .null := forall₂_congr fun hit _ => openSearchEntry_some
      rw [and_iff_right huntil, ← hread, ← mapM_some_iff]
      constructor
      · rintro ⟨entries, hentries, -⟩
        exact ⟨entries, hentries⟩
      · rintro ⟨entries, hentries⟩
        exact ⟨entries, hentries, fun hit hhit => mem_of_mapM hentries hhit⟩

def lineRuntime : ObservabilityRuntime :=
  ⟨fun s => s, fun _ => js "2023-11-14T22:13:20.000Z", js "2023-11-14T22:13:20.000Z", fun _ => none,
    fun l => ⟨l, .refl l⟩⟩

def lineService : LogsService := ⟨fun _ => none, fun _ => ⟨none, none, []⟩, false⟩

def lineQuery : LogQuery := ⟨none, some (js "web"), none, none, none, none⟩

/-- The stream that has a line at this time -/
def lineStream (nsStr : JsString) : JsValue :=
  .obj [(js "stream", .obj [(js "app", .str (js "web"))]), (js "values", .arr [.arr [.str nsStr, .str (js "up")]])]

def lineAnswer (nsStr : JsString) : Except JsString HttpResponse :=
  .ok ⟨true, .ok (.obj [(js "status", .str (js "success")),
    (js "data", .obj [(js "result", .arr [lineStream nsStr])])])⟩

def lineLog (nsStr : JsString) : ObservabilityLog :=
  [⟨.dateNow, ⟨1700000000000, by decide⟩⟩,
    ⟨.logs .loki (lokiRequest lineRuntime lineQuery (js "http://loki:3100") (lineService.adapterOptions .loki)
      1700000000000), lineAnswer nsStr⟩]

theorem lineLog_talks (nsStr : JsString) :
    Talks anyReply (lineService.queryAdapter lineRuntime lineQuery (js "http://loki:3100") .loki) (lineLog nsStr)
      (.ok (lokiEntries lineRuntime (lineService.adapterOptions .loki) [lineStream nsStr])) :=
  .ask trivial (.ask trivial (.done _))

end Homelab
