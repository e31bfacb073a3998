import Homelab.Onboarder

/-! When the onboarder reports a gap: each gap stands for an answer of success without a match just in case no
backend of logs fails while the others have no entry, and Grafana does not fail when its dashboards are fetched. -/
namespace Homelab
open Js Dialogue

/-! ### Answers in a log -/

def anyReply (q : ObservabilityAsk) (_ : ObservabilityReply q) : Prop := True

def prometheusAnswers (log : ObservabilityLog) : List (Except JsString HttpResponse) :=
  log.filterMap fun
    | ⟨.prometheus _, answer⟩ => some answer
    | _ => none

def logsAnswers (log : ObservabilityLog) : List (LogsBackend × Except JsString HttpResponse) :=
  log.filterMap fun
    | ⟨.logs backend _, answer⟩ => some (backend, answer)
    | _ => none

def grafanaAnswers (log : ObservabilityLog) : List (Except JsString HttpResponse) :=
  log.filterMap fun
    | ⟨.grafana _ _, answer⟩ => some answer
    | _ => none

/-- The channel whose backend is asked -/
def ObservabilityAsk.backendOf : ObservabilityAsk → Option OnboardingChannel
  | .prometheus _ => some .metrics
  | .logs _ _ => some .logs
  | .grafana _ _ => some .dashboards
  | _ => none

theorem logsAnswers_eq_nil {log : ObservabilityLog} (h : ∀ x ∈ log, x.ask.backendOf ≠ some .logs) :
    logsAnswers log = [] := by
  apply List.filterMap_eq_nil_iff.mpr
  rintro ⟨q, a⟩ hx
  have hask := h _ hx
  cases q with
  | logs backend request => exact absurd rfl hask
  | _ => rfl

theorem grafanaAnswers_eq_nil {log : ObservabilityLog} (h : ∀ x ∈ log, x.ask.backendOf ≠ some .dashboards) :
    grafanaAnswers log = [] := by
  apply List.filterMap_eq_nil_iff.mpr
  rintro ⟨q, a⟩ hx
  have hask := h _ hx
  cases q with
  | grafana url headers => exact absurd rfl hask
  | _ => rfl

theorem logsAnswers_append (log log' : ObservabilityLog) :
    logsAnswers (log ++ log') = logsAnswers log ++ logsAnswers log' := List.filterMap_append

theorem grafanaAnswers_append (log log' : ObservabilityLog) :
    grafanaAnswers (log ++ log') = grafanaAnswers log ++ grafanaAnswers log' := List.filterMap_append

/-- All answers of the log backends come in one part of a log. -/
theorem logsAnswers_between {before part after : ObservabilityLog}
    (hbefore : ∀ x ∈ before, x.ask.backendOf ≠ some .logs) (hafter : ∀ x ∈ after, x.ask.backendOf ≠ some .logs) :
    logsAnswers (before ++ (part ++ after)) = logsAnswers part := by
  rw [logsAnswers_append, logsAnswers_append, logsAnswers_eq_nil hbefore, logsAnswers_eq_nil hafter,
    List.nil_append, List.append_nil]

theorem grafanaAnswers_between {before part after : ObservabilityLog}
    (hbefore : ∀ x ∈ before, x.ask.backendOf ≠ some .dashboards)
    (hafter : ∀ x ∈ after, x.ask.backendOf ≠ some .dashboards) :
    grafanaAnswers (before ++ (part ++ after)) = grafanaAnswers part := by
  rw [grafanaAnswers_append, grafanaAnswers_append, grafanaAnswers_eq_nil hbefore,
    grafanaAnswers_eq_nil hafter, List.nil_append, List.append_nil]

/-- A question first, and then the rest -/
theorem talks_inquire_bind {q : ObservabilityAsk} {α : Type} {f : ObservabilityReply q → Check α}
    {log : ObservabilityLog} {r : Except JsString α} (h : Talks anyReply ((inquire q).bind f) log r) :
    ∃ a rest, Talks anyReply (f a) rest r ∧ log = ⟨q, a⟩ :: rest := by
  obtain ⟨a, rest, -, hrest, rfl⟩ := talks_ask.mp h
  exact ⟨a, rest, hrest, rfl⟩

/-- A base URL is looked up without asking a backend. -/
theorem resolveBase_talks {check : OnboardingChannel} {configured : Option JsString} {graphStore : Bool}
    {discover : List ServiceEntity → Option JsString} {cached : Option (Option JsString)}
    {log : ObservabilityLog} {r : Except JsString (Option JsString)}
    (h : Talks anyReply (resolveBase check configured graphStore discover cached) log r) :
    ∃ base, r = .ok base ∧ ∀ x ∈ log, x.ask.backendOf = none := by
  unfold resolveBase at h
  have hkept {base : Option JsString} (h : Talks anyReply (.done base : Check (Option JsString)) log r) :
      ∃ base, r = .ok base ∧ ∀ x ∈ log, x.ask.backendOf = none := by
    obtain ⟨rfl, rfl⟩ := talks_done.mp h
    exact ⟨base, rfl, fun x hx => absurd hx List.not_mem_nil⟩
  split at h
  · exact hkept h
  · split at h
    · exact hkept h
    · split at h
      · obtain ⟨answer, rest, hrest, rfl⟩ := talks_inquire_bind h
        cases answer with
        | ok services =>
          obtain ⟨rfl, rfl⟩ := talks_done.mp hrest
          exact ⟨_, rfl, List.forall_mem_singleton.mpr rfl⟩
        | error message =>
          obtain ⟨rfl, rfl⟩ := talks_done.mp hrest
          exact ⟨_, rfl, List.forall_mem_singleton.mpr rfl⟩
      · exact hkept h

/-! ### Calls -/

/-- A call of `onboard`: what was asked and answered, and its report -/
structure OnboardCall where
  entity : ServiceEntity
  log : ObservabilityLog
  report : OnboardingReport

/-- The report has the channel as a gap, or there is an observation of that. -/
def OnboardCall.Missing (c : OnboardCall) (channel : OnboardingChannel) : Prop :=
  (∃ r ∈ c.report.channels, r.channel = channel ∧ r.status = .gap) ∨
    ∃ obs ∈ c.report.observations, obs.pattern = ObservabilityOnboarder.gapPattern ∧
      obs.resource = ObservabilityOnboarder.gapResource c.entity channel

def OnboardCall.Wired (c : OnboardCall) (channel : OnboardingChannel) : Prop :=
  ∃ r ∈ c.report.channels, r.channel = channel ∧ r.status = .wired

section Soundness

variable (rt : ObservabilityRuntime) (o : ObservabilityOnboarder)

/-- The backend of the channel was reached and answered with success, and its answer had no match. For the logs
that is every backend that has an endpoint; the dashboards are those of the last fetch. -/
def Absent (e : ServiceEntity) (past log : ObservabilityLog) : OnboardingChannel → Prop
  | .metrics => ∃ a ∈ prometheusAnswers log, ∃ targets, answeredTargets a = some targets ∧
      ∀ t ∈ targets, targetMatchesEntity rt (entityMetricsSignals rt e) t ≠ .ok true
  | .logs => ∃ service, o.logsService = some service ∧ logsAnswers log ≠ [] ∧
      ∀ x ∈ logsAnswers log, service.answeredEntries rt x.1 x.2 = some []
  | .dashboards => ∃ a ds, (grafanaAnswers (past ++ log)).getLast? = some a ∧ answeredDashboards a = some ds ∧
      ∀ d ∈ ds, ∀ kind, matchDashboard rt (entitySignals rt e) d ≠ .ok (some kind)

/-- The backend of the channel was reached and answered with success, and its answer had a match. -/
def Found (e : ServiceEntity) (past log : ObservabilityLog) : OnboardingChannel → Prop
  | .metrics => ∃ a ∈ prometheusAnswers log, ∃ targets, answeredTargets a = some targets ∧
      ∃ t ∈ targets, targetMatchesEntity rt (entityMetricsSignals rt e) t = .ok true
  | .logs => ∃ service, o.logsService = some service ∧
      ∃ x ∈ logsAnswers log, ∃ entry rest, service.answeredEntries rt x.1 x.2 = some (entry :: rest)
  | .dashboards => ∃ a ds, (grafanaAnswers (past ++ log)).getLast? = some a ∧ answeredDashboards a = some ds ∧
      ∃ d ∈ ds, ∃ kind, matchDashboard rt (entitySignals rt e) d = .ok (some kind)

/-- Gaps and wired channels are what their backends have answered. -/
def SoundReport (past : ObservabilityLog) (c : OnboardCall) : Prop :=
  ∀ channel, (c.Missing channel → Absent rt o c.entity past c.log channel) ∧
    (c.Wired channel → Found rt o c.entity past c.log channel)

/-- No backend of logs fails, unless another one has an entry. -/
def LogsAnswer (log : ObservabilityLog) : Prop :=
  ∀ service, o.logsService = some service →
    (∃ x ∈ logsAnswers log, ∃ entry rest, service.answeredEntries rt x.1 x.2 = some (entry :: rest)) ∨
      ∀ x ∈ logsAnswers log, service.answeredEntries rt x.1 x.2 ≠ none

/-- Grafana does not fail if it is asked. -/
def GrafanaAnswers (log : ObservabilityLog) : Prop := ∀ a ∈ grafanaAnswers log, answeredDashboards a ≠ none

def BackendsAnswer (c : OnboardCall) : Prop := LogsAnswer rt o c.log ∧ GrafanaAnswers c.log

end Soundness

/-! ### Metrics -/

section Metrics

variable {rt : ObservabilityRuntime} {o : ObservabilityOnboarder} {e : ServiceEntity} {log : ObservabilityLog}

theorem anyTarget_true {signals : List JsString} {targets : List JsValue}
    (h : anyTarget rt signals targets = .ok true) :
    ∃ t ∈ targets, targetMatchesEntity rt signals t = .ok true := by
  induction targets with
  | nil => cases h
  | cons t ts ih =>
    cases hmatch : targetMatchesEntity rt signals t with
    | error message =>
      rw [anyTarget, hmatch] at h
      cases h
    | ok found =>
      cases found with
      | true => exact ⟨t, List.mem_cons_self, hmatch⟩
      | false =>
        rw [anyTarget, hmatch] at h
        obtain ⟨u, hu, hfound⟩ := ih h
        exact ⟨u, List.mem_cons_of_mem _ hu, hfound⟩

theorem anyTarget_false {signals : List JsString} {targets : List JsValue}
    (h : anyTarget rt signals targets = .ok false) :
    ∀ t ∈ targets, targetMatchesEntity rt signals t = .ok false := by
  induction targets with
  | nil => exact fun t ht => absurd ht List.not_mem_nil
  | cons t ts ih =>
    cases hmatch : targetMatchesEntity rt signals t with
    | error message =>
      rw [anyTarget, hmatch] at h
      cases h
    | ok found =>
      rw [anyTarget, hmatch] at h
      cases found with
      | true => cases h
      | false => exact List.forall_mem_cons.mpr ⟨hmatch, ih h⟩

/-- Without signals no target matches. -/
theorem targetMatchesEntity_nil (t : JsValue) : targetMatchesEntity rt [] t ≠ .ok true := by
  rw [targetMatchesEntity]
  cases readProperty t (js "discoveredLabels") with
  | error message => exact nofun
  | ok v => exact nofun

/-- What can be told of the metrics is what an answer of success says. -/
theorem checkMetricsScraping_talks {base : JsString} {r : Except JsString (Option Bool)}
    (h : Talks anyReply (checkMetricsScraping rt e base) log r) :
    (∀ x ∈ log, x.ask.backendOf = some .metrics) ∧
      (r = .ok (some false) → ∃ a ∈ prometheusAnswers log, ∃ targets, answeredTargets a = some targets ∧
        ∀ t ∈ targets, targetMatchesEntity rt (entityMetricsSignals rt e) t ≠ .ok true) ∧
      (r = .ok (some true) → ∃ a ∈ prometheusAnswers log, ∃ targets, answeredTargets a = some targets ∧
        ∃ t ∈ targets, targetMatchesEntity rt (entityMetricsSignals rt e) t = .ok true) := by
  obtain ⟨a, rest, hrest, rfl⟩ := talks_inquire_bind h
  have hasked : a ∈ prometheusAnswers [(⟨.prometheus _, a⟩ : Exchange ObservabilityReply)] :=
    List.mem_singleton_self a
  have honly {x : Exchange ObservabilityReply} {url : JsString} {a : Except JsString HttpResponse}
      (hx : x ∈ [(⟨.prometheus url, a⟩ : Exchange ObservabilityReply)]) :
        x.ask.backendOf = some .metrics := by
    rw [List.mem_singleton.mp hx]
    rfl
  cases htargets : answeredTargets a with
  | none =>
    rw [htargets] at hrest
    obtain ⟨rfl, rfl⟩ := talks_done.mp hrest
    exact ⟨fun x hx => honly hx, nofun, nofun⟩
  | some targets =>
    rw [htargets] at hrest
    dsimp only at hrest
    split_ifs at hrest with hsignals
    · obtain ⟨rfl, rfl⟩ := talks_done.mp hrest
      refine ⟨fun x hx => honly hx, fun _ => ⟨a, hasked, targets, htargets, fun t _ => ?_⟩, nofun⟩
      rw [hsignals]
      exact targetMatchesEntity_nil t
    · cases hany : anyTarget rt (entityMetricsSignals rt e) targets with
      | error message =>
        rw [hany] at hrest
        obtain ⟨rfl, rfl⟩ := talks_fail.mp hrest
        exact ⟨fun x hx => honly hx, nofun, nofun⟩
      | ok scraped =>
        rw [hany] at hrest
        obtain ⟨rfl, rfl⟩ := talks_done.mp hrest
        refine ⟨fun x hx => honly hx, fun hr => ?_, fun hr => ?_⟩
        · obtain rfl : scraped = false := Option.some.inj (Except.ok.inj hr)
          refine ⟨a, hasked, targets, htargets, fun t ht hmatch => ?_⟩
          rw [anyTarget_false hany t ht] at hmatch
          cases hmatch
        · obtain rfl : scraped = true := Option.some.inj (Except.ok.inj hr)
          exact ⟨a, hasked, targets, htargets, anyTarget_true hany⟩

theorem checkMetricsChannel_talks {cached : Option (Option JsString)}
    {r : Except JsString (ChannelResult × Option JsString)}
    (h : Talks anyReply (o.checkMetricsChannel rt cached e) log r) :
    ∃ result base, r = .ok (result, base) ∧ result.channel = .metrics ∧
      (∀ x ∈ log, x.ask.backendOf ≠ some .logs ∧ x.ask.backendOf ≠ some .dashboards) ∧
      (result.status = .gap → Absent rt o e [] log .metrics) ∧
      (result.status = .wired → Found rt o e [] log .metrics) := by
  rcases talks_bind.mp h with ⟨message, hfail, -⟩ | ⟨promBase, first, second, hbase, hrest, rfl⟩
  · obtain ⟨base, hok, -⟩ := resolveBase_talks hfail
    cases hok
  obtain ⟨base, -, hlookup⟩ := resolveBase_talks hbase
  have hfirst : ∀ x ∈ first, x.ask.backendOf ≠ some .logs ∧ x.ask.backendOf ≠ some .dashboards := by
    intro x hx
    rw [hlookup x hx]
    exact ⟨nofun, nofun⟩
  cases promBase with
  | none =>
    obtain ⟨rfl, rfl⟩ := talks_done.mp hrest
    rw [List.append_nil]
    exact ⟨_, _, rfl, rfl, hfirst, nofun, nofun⟩
  | some base =>
    rcases talks_bind.mp hrest with ⟨message, hfail, -⟩ | ⟨scraped, third, fourth, hscraped, hlast, rfl⟩
    · obtain ⟨_, -, hok⟩ := talks_attempt.mp hfail
      cases hok
    obtain ⟨outcome, hcheck, hok⟩ := talks_attempt.mp hscraped
    obtain rfl := Except.ok.inj hok
    obtain ⟨hmetrics, hgap, hwired⟩ := checkMetricsScraping_talks hcheck
    have hthird : ∀ x ∈ third, x.ask.backendOf ≠ some .logs ∧ x.ask.backendOf ≠ some .dashboards := by
      intro x hx
      rw [hmetrics x hx]
      exact ⟨nofun, nofun⟩
    have hquiet : ∀ x ∈ first ++ (third ++ []),
        x.ask.backendOf ≠ some .logs ∧ x.ask.backendOf ≠ some .dashboards := by
      rw [List.append_nil]
      exact List.forall_mem_append.mpr ⟨hfirst, hthird⟩
    have hin {a : Except JsString HttpResponse} (ha : a ∈ prometheusAnswers third) :
        a ∈ prometheusAnswers (first ++ (third ++ [])) := by
      rw [List.append_nil, prometheusAnswers, List.filterMap_append]
      exact List.mem_append_right _ ha
    -- a check that throws, no answer of success, no target that matches, or one that does
    rcases scraped with message | (_ | _ | _)
    · obtain ⟨rfl, rfl⟩ := talks_done.mp hlast
      exact ⟨_, _, rfl, rfl, hquiet, nofun, nofun⟩
    · obtain ⟨rfl, rfl⟩ := talks_done.mp hlast
      exact ⟨_, _, rfl, rfl, hquiet, nofun, nofun⟩
    · obtain ⟨rfl, rfl⟩ := talks_done.mp hlast
      refine ⟨_, _, rfl, rfl, hquiet, fun _ => ?_, nofun⟩
      obtain ⟨a, ha, htargets⟩ := hgap rfl
      exact ⟨a, hin ha, htargets⟩
    · obtain ⟨rfl, rfl⟩ := talks_done.mp hlast
      refine ⟨_, _, rfl, rfl, hquiet, nofun, fun _ => ?_⟩
      obtain ⟨a, ha, htargets⟩ := hwired rfl
      exact ⟨a, hin ha, htargets⟩

end Metrics

/-! ### Logs -/

section Logs

variable {rt : ObservabilityRuntime} {o : ObservabilityOnboarder} {service : LogsService} {e : ServiceEntity}
  {log : ObservabilityLog}

theorem sinceMs_logsQuery (nowMs : ℤ) :
    sinceMs rt (ObservabilityOnboarder.logsQuery e) nowMs = nowMs-3600000 := by
  have hduration : durationMs (js "1h") = some 3600000 := by decide
  change parseSinceMs rt (js "1h") nowMs = nowMs-3600000
  rw [parseSinceMs, hduration]
  have hlookback : maxLookbackMs = 604800000 := by decide
  change max (nowMs-3600000) (nowMs-maxLookbackMs) = nowMs-3600000
  rw [hlookback]
  omega

/-- The query of the onboarder can always be built. -/
theorem openSearchRequest_logsQuery (rt : ObservabilityRuntime) (e : ServiceEntity) (url : JsString)
    (opts : LogsAdapterOptions) (nowMs : EpochMs) :
    ∃ request, openSearchRequest rt (ObservabilityOnboarder.logsQuery e) url opts nowMs.1 = some request := by
  have htime := nowMs.2
  have hsince : toISOString rt (some (sinceMs rt (ObservabilityOnboarder.logsQuery e) nowMs.1)) =
      some (rt.isoText (nowMs.1-3600000)) := by
    rw [sinceMs_logsQuery]
    exact if_pos (by omega)
  have huntil : toISOString rt (untilMs rt (ObservabilityOnboarder.logsQuery e) nowMs.1) =
      some (rt.isoText nowMs.1) := if_pos (by omega)
  rw [openSearchRequest, buildOpenSearchQuery, hsince, huntil]
  exact ⟨_, rfl⟩

/-- An adapter asks its backend once, and gives the entries of an answer of success. -/
def Queried (rt : ObservabilityRuntime) (service : LogsService) (backend : LogsBackend)
    (log : ObservabilityLog) (entries : List LogEntry) : Prop :=
  ∃ answer, logsAnswers log = [(backend, answer)] ∧
    entries = (service.answeredEntries rt backend answer).getD []

theorem quiet_query (nowMs : EpochMs) (backend : LogsBackend) (request : LogsRequest)
    (answer : Except JsString HttpResponse) :
    ∀ x ∈ [(⟨.dateNow, nowMs⟩ : Exchange ObservabilityReply), ⟨.logs backend request, answer⟩],
      x.ask.backendOf ≠ some .dashboards := by
  intro x hx
  rcases List.mem_pair.mp hx with rfl | rfl
  · exact nofun
  · exact nofun

/-- Reading an answer gives no entries when it is none of success. -/
theorem talks_read {items : Option (List JsValue)} {read : List JsValue → Option (List LogEntry)}
    {r : Except JsString (Option (List LogEntry))}
    (h : Talks anyReply (match items with
      | none => .done (some [])
      | some items => .done (read items) : Check (Option (List LogEntry))) log r) :
    log = [] ∧ ∃ out, r = .ok out ∧ out.getD [] = (items.bind read).getD [] := by
  cases items with
  | none =>
    obtain ⟨rfl, rfl⟩ := talks_done.mp h
    exact ⟨rfl, _, rfl, rfl⟩
  | some items =>
    obtain ⟨rfl, rfl⟩ := talks_done.mp h
    exact ⟨rfl, _, rfl, rfl⟩

theorem queryLoki_talks {q : LogQuery} {url : JsString} {r : Except JsString (Option (List LogEntry))}
    (h : Talks anyReply (service.queryLoki rt q url) log r) :
    ∃ out, r = .ok out ∧ (∀ x ∈ log, x.ask.backendOf ≠ some .dashboards) ∧
      Queried rt service .loki log (out.getD []) := by
  obtain ⟨nowMs, rest, hrest, rfl⟩ := talks_inquire_bind h
  obtain ⟨answer, last, hlast, rfl⟩ := talks_inquire_bind hrest
  obtain ⟨rfl, out, rfl, hout⟩ := talks_read hlast
  exact ⟨out, rfl, quiet_query nowMs .loki _ answer, answer, rfl, hout⟩

theorem queryOpenSearch_talks {url : JsString} {r : Except JsString (Option (List LogEntry))}
    (h : Talks anyReply (service.queryOpenSearch rt (ObservabilityOnboarder.logsQuery e) url) log r) :
    ∃ out, r = .ok out ∧ (∀ x ∈ log, x.ask.backendOf ≠ some .dashboards) ∧
      Queried rt service .opensearch log (out.getD []) := by
  obtain ⟨nowMs, rest, hrest, rfl⟩ := talks_inquire_bind h
  obtain ⟨request, hrequest⟩ := openSearchRequest_logsQuery rt e url
    (service.adapterOptions .opensearch) nowMs
  rw [hrequest] at hrest
  obtain ⟨answer, last, hlast, rfl⟩ := talks_inquire_bind hrest
  obtain ⟨rfl, out, rfl, hout⟩ := talks_read hlast
  exact ⟨out, rfl, quiet_query nowMs .opensearch request answer, answer, rfl, hout⟩

/-- A backend without an endpoint is not asked, and any other one is asked once. -/
theorem queryBackend_talks {backend : LogsBackend} {url : Option JsString}
    {r : Except JsString (BackendStatus × List LogEntry)}
    (h : Talks anyReply (service.queryBackend rt (ObservabilityOnboarder.logsQuery e) backend url) log r) :
    ∃ status entries, r = .ok (status, entries) ∧ (∀ x ∈ log, x.ask.backendOf ≠ some .dashboards) ∧
      (status = .noEndpoint ∧ entries = [] ∧ logsAnswers log = [] ∨
        status ≠ .noEndpoint ∧ Queried rt service backend log entries) := by
  cases url with
  | none =>
    obtain ⟨rfl, rfl⟩ := talks_done.mp h
    exact ⟨_, _, rfl, fun x hx => absurd hx List.not_mem_nil, .inl ⟨rfl, rfl, rfl⟩⟩
  | some url =>
    -- the adapter does not throw here, so the status is what it gave
    have hstatus {query : Check (Option (List LogEntry))}
        {next : Option (List LogEntry) → Check (BackendStatus × List LogEntry)}
        (hsome : ∀ entries, next (some entries) = .done (.ok, entries))
        (hnone : next none = .done (.unreachable, []))
        (hquery : ∀ {log r}, Talks anyReply query log r → ∃ out, r = .ok out ∧
          (∀ x ∈ log, x.ask.backendOf ≠ some .dashboards) ∧ Queried rt service backend log (out.getD []))
        (h : Talks anyReply (query.bind next) log r) :
        ∃ status entries, r = .ok (status, entries) ∧ (∀ x ∈ log, x.ask.backendOf ≠ some .dashboards) ∧
          (status = .noEndpoint ∧ entries = [] ∧ logsAnswers log = [] ∨
            status ≠ .noEndpoint ∧ Queried rt service backend log entries) := by
      rcases talks_bind.mp h with ⟨message, hfail, -⟩ | ⟨out, first, second, hfirst, hsecond, rfl⟩
      · obtain ⟨out, hok, -⟩ := hquery hfail
        cases hok
      obtain ⟨out, hok, hquiet, hqueried⟩ := hquery hfirst
      obtain rfl := Except.ok.inj hok
      cases out with
      | none =>
        rw [hnone] at hsecond
        obtain ⟨rfl, rfl⟩ := talks_done.mp hsecond
        rw [List.append_nil]
        exact ⟨_, _, rfl, hquiet, .inr ⟨nofun, hqueried⟩⟩
      | some entries =>
        rw [hsome] at hsecond
        obtain ⟨rfl, rfl⟩ := talks_done.mp hsecond
        rw [List.append_nil]
        exact ⟨_, _, rfl, hquiet, .inr ⟨nofun, hqueried⟩⟩
    cases backend with
    | loki => exact hstatus (fun _ => rfl) rfl queryLoki_talks h
    | opensearch => exact hstatus (fun _ => rfl) rfl queryOpenSearch_talks h

/-- A result of queries: `asked` says that some backend was asked, `empty` that there is no entry. -/
structure Covers (rt : ObservabilityRuntime) (service : LogsService) (log : ObservabilityLog)
    (asked empty : Prop) : Prop where
  quiet : ∀ x ∈ log, x.ask.backendOf ≠ some .dashboards
  asked_iff : asked ↔ logsAnswers log ≠ []
  empty_iff : empty ↔ ∀ x ∈ logsAnswers log, (service.answeredEntries rt x.1 x.2).getD [] = []

theorem Covers.append {log' : ObservabilityLog} {asked asked' empty empty' : Prop}
    (h : Covers rt service log asked empty) (h' : Covers rt service log' asked' empty') :
    Covers rt service (log ++ log') (asked ∨ asked') (empty ∧ empty') where
  quiet := List.forall_mem_append.mpr ⟨h.quiet, h'.quiet⟩
  asked_iff := by
    rw [logsAnswers_append, Ne, List.append_eq_nil_iff, h.asked_iff, h'.asked_iff, not_and_or]
  empty_iff := by
    rw [logsAnswers_append, List.forall_mem_append, h.empty_iff, h'.empty_iff]

theorem queryBackend_covers {backend : LogsBackend} {url : Option JsString}
    {r : Except JsString (BackendStatus × List LogEntry)}
    (h : Talks anyReply (service.queryBackend rt (ObservabilityOnboarder.logsQuery e) backend url) log r) :
    ∃ status entries, r = .ok (status, entries) ∧
      Covers rt service log (status ≠ .noEndpoint) (entries = []) := by
  obtain ⟨status, entries, rfl, hquiet, hcase⟩ := queryBackend_talks h
  refine ⟨status, entries, rfl, hquiet, ?_, ?_⟩
  · rcases hcase with ⟨rfl, -, hnone⟩ | ⟨hasked, answer, hanswer, -⟩
    · exact iff_of_false (fun hne => hne rfl) (fun hne => hne hnone)
    · rw [hanswer]
      exact iff_of_true hasked (List.cons_ne_nil _ _)
  · rcases hcase with ⟨-, rfl, hnone⟩ | ⟨-, answer, hanswer, hentries⟩
    · rw [hnone]
      exact iff_of_true rfl fun x hx => absurd hx List.not_mem_nil
    · rw [hanswer, hentries, List.forall_mem_singleton]

theorem resolveEndpoints_talks {r : Except JsString (LogsBackend → Option JsString)}
    (h : Talks anyReply (service.resolveEndpoints rt) log r) :
    ∃ resolved, r = .ok resolved ∧ Covers rt service log False True := by
  have hlookup (hlog : ∀ x ∈ log, x.ask.backendOf = none) : Covers rt service log False True := by
    have hnone : logsAnswers log = [] := logsAnswers_eq_nil fun x hx => by
      rw [hlog x hx]
      exact nofun
    refine ⟨fun x hx => ?_, ?_, ?_⟩
    · rw [hlog x hx]
      exact nofun
    · exact iff_of_false id fun hne => hne hnone
    · rw [hnone]
      exact iff_of_true trivial fun x hx => absurd hx List.not_mem_nil
  rw [LogsService.resolveEndpoints] at h
  split at h
  · obtain ⟨answer, rest, hrest, rfl⟩ := talks_inquire_bind h
    obtain ⟨rfl, rfl⟩ := talks_done.mp hrest
    exact ⟨_, rfl, hlookup (List.forall_mem_singleton.mpr rfl)⟩
  · obtain ⟨rfl, rfl⟩ := talks_done.mp h
    exact ⟨_, rfl, hlookup fun x hx => absurd hx List.not_mem_nil⟩

theorem sortEntries_perm (l : List LogEntry) : (LogsService.sortEntries rt l).Perm l := by
  rw [LogsService.sortEntries]
  split
  · exact List.perm_insertionSort _ l
  · exact (rt.anyOrder l).2

theorem query_talks {r : Except JsString LogsQueryResult}
    (h : Talks anyReply (service.query rt (ObservabilityOnboarder.logsQuery e)) log r) :
    ∃ result, r = .ok result ∧ Covers rt service log
      (result.backends .loki ≠ .noEndpoint ∨ result.backends .opensearch ≠ .noEndpoint)
      (result.entries = []) := by
  rcases talks_bind.mp h with ⟨message, hfail, -⟩ | ⟨resolved, first, rest, hfirst, hrest, rfl⟩
  · obtain ⟨_, hok, -⟩ := resolveEndpoints_talks hfail
    cases hok
  obtain ⟨_, -, hresolved⟩ := resolveEndpoints_talks hfirst
  rcases talks_bind.mp hrest with ⟨message, hfail, -⟩ | ⟨loki, second, rest, hsecond, hrest, rfl⟩
  · obtain ⟨_, _, hok, -⟩ := queryBackend_covers hfail
    cases hok
  obtain ⟨lokiStatus, fromLoki, hok, hloki⟩ := queryBackend_covers hsecond
  obtain rfl := Except.ok.inj hok
  rcases talks_bind.mp hrest with ⟨message, hfail, -⟩ | ⟨opensearch, third, rest, hthird, hrest, rfl⟩
  · obtain ⟨_, _, hok, -⟩ := queryBackend_covers hfail
    cases hok
  obtain ⟨openSearchStatus, fromOpenSearch, hok, hopensearch⟩ := queryBackend_covers hthird
  obtain rfl := Except.ok.inj hok
  obtain ⟨rfl, rfl⟩ := talks_done.mp hrest
  have hcovers := hresolved.append (hloki.append hopensearch)
  rw [List.append_nil]
  refine ⟨_, rfl, hcovers.quiet, ?_, ?_⟩
  · rw [← hcovers.asked_iff, false_or]
  · rw [← hcovers.empty_iff, true_and]
    have hsorted : LogsService.sortEntries rt (fromLoki ++ fromOpenSearch) = [] ↔
        fromLoki ++ fromOpenSearch = [] := by
      rw [← List.length_eq_zero_iff, (sortEntries_perm _).length_eq, List.length_eq_zero_iff]
    have hlimit : sliceEnd (clampLimit (some (.ofNat 1))) = 1 := by decide +kernel
    change (LogsService.sortEntries rt (fromLoki ++ fromOpenSearch)).take
      (sliceEnd (clampLimit (some (.ofNat 1)))) = [] ↔ _
    rw [hlimit, List.take_eq_nil_iff, hsorted, List.append_eq_nil_iff]
    exact or_iff_right one_ne_zero

/-- The channel of the logs has a gap or is wired as its backends say, unless one of them fails. -/
theorem checkLogsChannel_talks {r : Except JsString ChannelResult}
    (h : Talks anyReply (o.checkLogsChannel rt e) log r) :
    ∃ result, r = .ok result ∧ result.channel = .logs ∧ (∀ x ∈ log, x.ask.backendOf ≠ some .dashboards) ∧
      (result.status = .wired → Found rt o e [] log .logs) ∧
      ((result.status = .gap → Absent rt o e [] log .logs) ↔ LogsAnswer rt o log) := by
  rw [ObservabilityOnboarder.checkLogsChannel] at h
  cases hservice : o.logsService with
  | none =>
    rw [hservice] at h
    obtain ⟨rfl, rfl⟩ := talks_done.mp h
    refine ⟨_, rfl, rfl, fun x hx => absurd hx List.not_mem_nil, nofun, iff_of_true nofun ?_⟩
    intro service hsome
    rw [hservice] at hsome
    cases hsome
  | some service =>
    rw [hservice] at h
    rcases talks_bind.mp h with ⟨message, hfail, -⟩ | ⟨result, first, rest, hfirst, hrest, rfl⟩
    · obtain ⟨_, hok, -⟩ := query_talks hfail
      cases hok
    obtain ⟨result, hok, hcovers⟩ := query_talks hfirst
    obtain rfl := Except.ok.inj hok
    obtain ⟨rfl, rfl⟩ := talks_done.mp hrest
    rw [List.append_nil]
    have hentry (x : LogsBackend × Except JsString HttpResponse) :
        (service.answeredEntries rt x.1 x.2).getD [] ≠ [] ↔
          ∃ entry rest, service.answeredEntries rt x.1 x.2 = some (entry :: rest) := by
      rcases service.answeredEntries rt x.1 x.2 with _ | _ | ⟨entry, rest⟩
      · exact iff_of_false (fun hne => hne rfl) nofun
      · exact iff_of_false (fun hne => hne rfl) nofun
      · exact iff_of_true (List.cons_ne_nil _ _) ⟨entry, rest, rfl⟩
    -- entries come from an answer that has some
    have hfound (hentries : result.entries ≠ []) : ∃ x ∈ logsAnswers first, ∃ entry rest,
        service.answeredEntries rt x.1 x.2 = some (entry :: rest) := by
      by_contra hnone
      apply hentries
      refine hcovers.empty_iff.mpr fun x hx => ?_
      by_contra hne
      exact hnone ⟨x, hx, (hentry x).mp hne⟩
    refine ⟨_, rfl, ?_, hcovers.quiet, ?_, ?_⟩
    · split_ifs <;> rfl
    · split_ifs with hnone hentries
      · exact nofun
      · exact fun _ => ⟨service, hservice, hfound hentries⟩
      · exact nofun
    · split_ifs with hnone hentries
      -- neither backend is configured: nothing is asked, and that is no gap
      · have hunasked : logsAnswers first = [] := by
          by_contra hasked
          rcases hcovers.asked_iff.mpr hasked with hloki | hopensearch
          · exact hloki hnone.1
          · exact hopensearch hnone.2
        refine iff_of_true nofun fun _ _ => .inr ?_
        rw [hunasked]
        exact fun x hx => absurd hx List.not_mem_nil
      · refine iff_of_true nofun fun service' hservice' => .inl ?_
        obtain rfl := Option.some.inj (hservice.symm.trans hservice')
        exact hfound hentries
      -- a gap is reported: it is one exactly when every answer could be read
      · have hempty := hcovers.empty_iff.mp (not_not.mp hentries)
        constructor
        · intro habsent service' hservice'
          obtain rfl := Option.some.inj (hservice.symm.trans hservice')
          obtain ⟨service', hservice', -, hall⟩ := habsent rfl
          obtain rfl := Option.some.inj (hservice.symm.trans hservice')
          refine .inr fun x hx => ?_
          rw [hall x hx]
          exact nofun
        · intro hanswer _
          refine ⟨service, hservice, ?_, fun x hx => ?_⟩
          · apply hcovers.asked_iff.mp
            by_contra hasked
            exact hnone (not_or.mp hasked |>.imp not_not.mp not_not.mp)
          · rcases hanswer service hservice with ⟨y, hy, hentries⟩ | hall
            · exact absurd (hempty y hy) ((hentry y).mpr hentries)
            · obtain ⟨entries, hentries⟩ := Option.ne_none_iff_exists'.mp (hall x hx)
              have hnil := hempty x hx
              rw [hentries, Option.getD_some] at hnil
              rw [hentries, hnil]

end Logs

/-! ### Dashboards -/

section Dashboards

variable {rt : ObservabilityRuntime} {o : ObservabilityOnboarder} {registry : GrafanaRegistry}
  {e : ServiceEntity}
  {past log : ObservabilityLog} {cache : GrafanaCache}

theorem matchDashboard_nil (d : GrafanaDashboard) (kind : MatchKind) :
    matchDashboard rt [] d ≠ .ok (some kind) := by
  rw [matchDashboard]
  cases normFolder rt d with
  | error message => exact nofun
  | ok folder =>
    cases d.tags.mapM (lowerOrThrow rt (js "t")) with
    | error message => exact nofun
    | ok tags => exact nofun

theorem matchingDashboards_nil {signals : List JsString} {ds : List GrafanaDashboard}
    (h : matchingDashboards rt signals ds = .ok []) : ∀ d ∈ ds, matchDashboard rt signals d = .ok none := by
  induction ds with
  | nil => exact fun d hd => absurd hd List.not_mem_nil
  | cons d ds ih =>
    rw [matchingDashboards] at h
    cases hmatch : matchDashboard rt signals d with
    | error message =>
      rw [hmatch] at h
      cases h
    | ok kind =>
      cases hrest : matchingDashboards rt signals ds with
      | error message =>
        rw [hmatch, hrest] at h
        cases h
      | ok rest =>
        rw [hmatch, hrest] at h
        cases kind with
        | some kind => cases h
        | none =>
          obtain rfl : rest = [] := Except.ok.inj h
          exact List.forall_mem_cons.mpr ⟨hmatch, ih hrest⟩

theorem matchingDashboards_cons {signals : List JsString} {ds : List GrafanaDashboard}
    {f : GrafanaDashboard × MatchKind} {fs : List (GrafanaDashboard × MatchKind)}
    (h : matchingDashboards rt signals ds = .ok (f :: fs)) :
    ∃ d ∈ ds, ∃ kind, matchDashboard rt signals d = .ok (some kind) := by
  induction ds with
  | nil => cases h
  | cons d ds ih =>
    rw [matchingDashboards] at h
    cases hmatch : matchDashboard rt signals d with
    | error message =>
      rw [hmatch] at h
      cases h
    | ok kind =>
      cases hrest : matchingDashboards rt signals ds with
      | error message =>
        rw [hmatch, hrest] at h
        cases h
      | ok rest =>
        rw [hmatch, hrest] at h
        cases kind with
        | some kind => exact ⟨d, List.mem_cons_self, kind, hmatch⟩
        | none =>
          obtain rfl : rest = f :: fs := Except.ok.inj h
          obtain ⟨d', hd', hfound⟩ := ih hrest
          exact ⟨d', List.mem_cons_of_mem _ hd', hfound⟩

theorem dashboardLinks_nil {base : JsString} {ds : List GrafanaDashboard}
    (h : dashboardLinks rt base e ds = .ok []) :
    ∀ d ∈ ds, ∀ kind, matchDashboard rt (entitySignals rt e) d ≠ .ok (some kind) := by
  rw [dashboardLinks] at h
  split_ifs at h with hnone
  · rcases hnone with rfl | hsignals
    · exact fun d hd => absurd hd List.not_mem_nil
    · rw [hsignals]
      exact fun d _ kind => matchDashboard_nil d kind
  · cases hfound : matchingDashboards rt (entitySignals rt e) ds with
    | error message =>
      rw [hfound] at h
      cases h
    | ok found =>
      rw [hfound] at h
      obtain ⟨hexact, hfuzzy⟩ := List.append_eq_nil_iff.mp (Except.ok.inj h)
      cases found with
      | nil =>
        intro d hd kind hmatch
        rw [matchingDashboards_nil hfound d hd] at hmatch
        cases hmatch
      | cons f fs =>
        -- the first link is among the exact or among the fuzzy ones
        have hlink : dashboardLink base e f.1 f.2 ∈
            (f :: fs).map fun f => dashboardLink base e f.1 f.2 := List.mem_cons_self
        cases hkind : f.2 with
        | exact =>
          have hmatch : (dashboardLink base e f.1 f.2).matchKind = .exact := hkind
          exact absurd (decide_eq_true hmatch) (List.filter_eq_nil_iff.mp hexact _ hlink)
        | fuzzy =>
          have hmatch : (dashboardLink base e f.1 f.2).matchKind = .fuzzy := hkind
          exact absurd (decide_eq_true hmatch) (List.filter_eq_nil_iff.mp hfuzzy _ hlink)

theorem dashboardLinks_cons {base : JsString} {ds : List GrafanaDashboard} {link : DashboardLink}
    {links : List DashboardLink} (h : dashboardLinks rt base e ds = .ok (link :: links)) :
    ∃ d ∈ ds, ∃ kind, matchDashboard rt (entitySignals rt e) d = .ok (some kind) := by
  rw [dashboardLinks] at h
  split_ifs at h with hnone
  · cases h
  · cases hfound : matchingDashboards rt (entitySignals rt e) ds with
    | error message =>
      rw [hfound] at h
      cases h
    | ok found =>
      rw [hfound] at h
      cases found with
      | nil => cases h
      | cons f fs => exact matchingDashboards_cons hfound

/-- What is kept as the catalogue is what the last fetch has brought, with success. -/
def Fetched (past : ObservabilityLog) (cache : GrafanaCache) : Prop :=
  ∀ ds, cache.catalogue = some ds →
    ∃ a, (grafanaAnswers past).getLast? = some a ∧ answeredDashboards a = some ds

theorem fetchDashboards_talks {base : JsString} {r : Except JsString (List GrafanaDashboard)}
    (h : Talks anyReply (registry.fetchDashboards base cache) log r) :
    ∃ ds, r = .ok ds ∧ (cache.catalogue = some ds ∧ log = [] ∨
      ∃ url headers a, log = [⟨.grafana url headers, a⟩] ∧ ds = (answeredDashboards a).getD []) := by
  rw [GrafanaRegistry.fetchDashboards] at h
  split at h
  · next ds hcatalogue =>
    obtain ⟨rfl, rfl⟩ := talks_done.mp h
    exact ⟨ds, rfl, .inl ⟨hcatalogue, rfl⟩⟩
  · obtain ⟨a, rest, hrest, rfl⟩ := talks_inquire_bind h
    obtain ⟨rfl, rfl⟩ := talks_done.mp hrest
    exact ⟨_, rfl, .inr ⟨_, _, a, rfl, rfl⟩⟩

theorem dashboardsResult_channel (base : JsString) (ds : List GrafanaDashboard) :
    (ObservabilityOnboarder.dashboardsResult rt base e ds).channel = .dashboards := by
  rw [ObservabilityOnboarder.dashboardsResult]
  split <;> rfl

/-- A gap and a wired channel are what the dashboards of the last fetch say. -/
theorem dashboardsResult_sound (rt : ObservabilityRuntime) (o : ObservabilityOnboarder) (e : ServiceEntity)
    (base : JsString) {ds : List GrafanaDashboard} {a : Except JsString HttpResponse}
    (hlast : (grafanaAnswers (past ++ log)).getLast? = some a) (hds : answeredDashboards a = some ds) :
    ((ObservabilityOnboarder.dashboardsResult rt base e ds).status = .gap →
        Absent rt o e past log .dashboards) ∧
      ((ObservabilityOnboarder.dashboardsResult rt base e ds).status = .wired →
        Found rt o e past log .dashboards) := by
  rw [ObservabilityOnboarder.dashboardsResult]
  split
  · exact ⟨nofun, nofun⟩
  · next hnil => exact ⟨fun _ => ⟨a, ds, hlast, hds, dashboardLinks_nil hnil⟩, nofun⟩
  · next link links hcons => exact ⟨nofun, fun _ => ⟨a, ds, hlast, hds, dashboardLinks_cons hcons⟩⟩

/-- The last fetch has succeeded and brought these dashboards, or it has failed just now. -/
theorem fetch_cases {ds : List GrafanaDashboard} {first second : ObservabilityLog}
    (hcache : Fetched past cache) (hfirst : grafanaAnswers first = [])
    (hfetch : cache.catalogue = some ds ∧ second = [] ∨
      ∃ url headers a, second = [⟨.grafana url headers, a⟩] ∧ ds = (answeredDashboards a).getD []) :
    ∃ a, (grafanaAnswers (past ++ (first ++ second))).getLast? = some a ∧
      (answeredDashboards a = some ds ∧
          GrafanaAnswers (first ++ second) ∨
        answeredDashboards a = none ∧ ds = [] ∧ a ∈ grafanaAnswers (first ++ second)) := by
  rw [GrafanaAnswers, grafanaAnswers_append, grafanaAnswers_append, hfirst, List.nil_append]
  rcases hfetch with ⟨hcatalogue, rfl⟩ | ⟨url, headers, a, rfl, hds⟩
  · obtain ⟨a, hlast, hanswered⟩ := hcache ds hcatalogue
    have hnone : grafanaAnswers [] = [] := rfl
    rw [hnone, List.append_nil]
    exact ⟨a, hlast, .inl ⟨hanswered, fun a ha => absurd ha List.not_mem_nil⟩⟩
  · have hone : grafanaAnswers [(⟨.grafana url headers, a⟩ : Exchange ObservabilityReply)] = [a] := rfl
    rw [hone]
    refine ⟨a, List.getLast?_concat, ?_⟩
    cases hanswered : answeredDashboards a with
    | none =>
      rw [hanswered] at hds
      exact .inr ⟨rfl, hds, List.mem_singleton_self a⟩
    | some brought =>
      rw [hanswered, Option.getD_some] at hds
      refine .inl ⟨congrArg some hds.symm, List.forall_mem_singleton.mpr ?_⟩
      rw [hanswered]
      exact nofun

/-- The channel of the dashboards has a gap or is wired as Grafana says, unless it fails when it is asked. -/
theorem checkDashboardsChannel_talks {r : Except JsString (ChannelResult × GrafanaCache)}
    (hcache : Fetched past cache) (h : Talks anyReply (o.checkDashboardsChannel rt cache e) log r) :
    ∃ result next, r = .ok (result, next) ∧ result.channel = .dashboards ∧
      (∀ x ∈ log, x.ask.backendOf ≠ some .logs) ∧
      (result.status = .wired → Found rt o e past log .dashboards) ∧
      ((result.status = .gap → Absent rt o e past log .dashboards) ↔ GrafanaAnswers log) ∧
      (GrafanaAnswers log → Fetched (past ++ log) next) := by
  rw [ObservabilityOnboarder.checkDashboardsChannel] at h
  cases hregistry : o.grafanaRegistry with
  | none =>
    rw [hregistry] at h
    obtain ⟨rfl, rfl⟩ := talks_done.mp h
    rw [List.append_nil]
    exact ⟨_, _, rfl, rfl, fun x hx => absurd hx List.not_mem_nil, nofun,
      iff_of_true nofun fun a ha => absurd ha List.not_mem_nil, fun _ => hcache⟩
  | some registry =>
    rw [hregistry] at h
    rcases talks_bind.mp h with ⟨message, hfail, -⟩ | ⟨found, first, rest, hfirst, hrest, rfl⟩
    · obtain ⟨_, hok, -⟩ := resolveBase_talks hfail
      cases hok
    obtain ⟨_, -, hlookup⟩ := resolveBase_talks hfirst
    have hlogs : ∀ x ∈ first, x.ask.backendOf ≠ some .logs := by
      intro x hx
      rw [hlookup x hx]
      exact nofun
    -- finding the base asks no Grafana
    have hnone : grafanaAnswers first = [] := by
      apply grafanaAnswers_eq_nil
      intro x hx
      rw [hlookup x hx]
      exact nofun
    cases found with
    | none =>
      obtain ⟨rfl, rfl⟩ := talks_done.mp hrest
      rw [List.append_nil, GrafanaAnswers, hnone]
      refine ⟨_, _, rfl, rfl, hlogs, nofun, iff_of_true nofun fun a ha => absurd ha List.not_mem_nil, ?_⟩
      intro _ ds hds
      rw [grafanaAnswers_append, hnone, List.append_nil]
      exact hcache ds hds
    | some base =>
      rcases talks_bind.mp hrest with ⟨message, hfail, -⟩ | ⟨ds, second, last, hsecond, hlast, rfl⟩
      · obtain ⟨_, hok, -⟩ := fetchDashboards_talks hfail
        cases hok
      obtain ⟨ds, hok, hfetch⟩ := fetchDashboards_talks hsecond
      obtain rfl := Except.ok.inj hok
      obtain ⟨rfl, rfl⟩ := talks_done.mp hlast
      rw [List.append_nil]
      have hquiet : ∀ x ∈ first ++ second, x.ask.backendOf ≠ some .logs := by
        refine List.forall_mem_append.mpr ⟨hlogs, fun x hx => ?_⟩
        rcases hfetch with ⟨-, rfl⟩ | ⟨url, headers, a, rfl, -⟩
        · exact absurd hx List.not_mem_nil
        · rw [List.mem_singleton.mp hx]
          exact nofun
      obtain ⟨a, hlatest, ⟨hanswered, hall⟩ | ⟨hfailed, rfl, hmem⟩⟩ := fetch_cases hcache hnone hfetch
      · obtain ⟨hgap, hwired⟩ := dashboardsResult_sound rt o e base hlatest hanswered
        refine ⟨_, _, rfl, dashboardsResult_channel base ds, hquiet, hwired, iff_of_true hgap hall, ?_⟩
        intro _ ds' hds'
        obtain rfl := Option.some.inj hds'
        exact ⟨a, hlatest, hanswered⟩
      · -- Grafana has failed, and its catalogue is empty: a gap without an answer of success
        have hfails : ¬ GrafanaAnswers (first ++ second) := fun hall => hall a hmem hfailed
        refine ⟨_, _, rfl, rfl, hquiet, nofun, iff_of_false ?_ hfails, fun hall => absurd hall hfails⟩
        intro habsent
        obtain ⟨a', ds', hlast', hanswered', -⟩ := habsent rfl
        obtain rfl := Option.some.inj (hlatest.symm.trans hlast')
        rw [hfailed] at hanswered'
        cases hanswered'

end Dashboards

/-! ### Calls one after the other -/

section Calls

variable {rt : ObservabilityRuntime} {o : ObservabilityOnboarder} {e : ServiceEntity}
  {past log : ObservabilityLog} {cache : OnboarderCache}

theorem channelText_injective : Function.Injective ObservabilityOnboarder.channelText := by
  intro c c' h
  cases c <;> cases c' <;> first | rfl | (revert h; decide)

theorem gapResource_injective : Function.Injective (ObservabilityOnboarder.gapResource e) :=
  fun _ _ h => channelText_injective (List.append_cancel_left h)

/-- Each observation is of a channel with a gap, and no backend is asked for it. -/
theorem gapObservations_talks {checkedAt : JsString} {channels : List ChannelResult}
    {r : Except JsString (List Observation)}
    (h : Talks anyReply (o.gapObservations e checkedAt channels) log r) :
    ∃ observations, r = .ok observations ∧ (∀ x ∈ log, x.ask.backendOf = none) ∧
      ∀ obs ∈ observations, ∃ result ∈ channels, result.status = .gap ∧
        obs.resource = ObservabilityOnboarder.gapResource e result.channel := by
  induction channels generalizing log r with
  | nil =>
    obtain ⟨rfl, rfl⟩ := talks_done.mp h
    exact ⟨[], rfl, fun x hx => absurd hx List.not_mem_nil, fun obs hobs => absurd hobs List.not_mem_nil⟩
  | cons result channels ih =>
    rw [ObservabilityOnboarder.gapObservations] at h
    split_ifs at h with hgap
    · obtain ⟨id, rest, hrest, rfl⟩ := talks_inquire_bind h
      rcases talks_bind.mp hrest with ⟨message, hfail, -⟩ | ⟨found, first, last, hfirst, hlast, rfl⟩
      · obtain ⟨_, hok, -⟩ := ih hfail
        cases hok
      obtain ⟨found, hok, hquiet, hfound⟩ := ih hfirst
      obtain rfl := Except.ok.inj hok
      obtain ⟨rfl, rfl⟩ := talks_done.mp hlast
      rw [List.append_nil]
      refine ⟨_, rfl, List.forall_mem_cons.mpr ⟨rfl, hquiet⟩, ?_⟩
      intro obs hobs
      rcases List.mem_cons.mp hobs with rfl | hobs
      · exact ⟨result, List.mem_cons_self, hgap, rfl⟩
      · obtain ⟨result', hmem, hresult⟩ := hfound obs hobs
        exact ⟨result', List.mem_cons_of_mem _ hmem, hresult⟩
    · obtain ⟨found, rfl, hquiet, hfound⟩ := ih h
      refine ⟨found, rfl, hquiet, fun obs hobs => ?_⟩
      obtain ⟨result', hmem, hresult⟩ := hfound obs hobs
      exact ⟨result', List.mem_cons_of_mem _ hmem, hresult⟩

/-- A report is sound when each of its results is; the observations add nothing. -/
theorem soundReport_iff {c : OnboardCall}
    (hobservations : ∀ obs ∈ c.report.observations, ∃ result ∈ c.report.channels, result.status = .gap ∧
      obs.resource = ObservabilityOnboarder.gapResource c.entity result.channel) :
    SoundReport rt o past c ↔ ∀ result ∈ c.report.channels,
      (result.status = .gap → Absent rt o c.entity past c.log result.channel) ∧
      (result.status = .wired → Found rt o c.entity past c.log result.channel) := by
  constructor
  · intro hsound result hresult
    obtain ⟨habsent, hfound⟩ := hsound result.channel
    exact ⟨fun hgap => habsent (.inl ⟨result, hresult, rfl, hgap⟩),
      fun hwired => hfound ⟨result, hresult, rfl, hwired⟩⟩
  · intro hresults channel
    constructor
    · rintro (⟨result, hresult, rfl, hgap⟩ | ⟨obs, hobs, -, hresource⟩)
      · exact (hresults result hresult).1 hgap
      · obtain ⟨result, hresult, hgap, hof⟩ := hobservations obs hobs
        obtain rfl := gapResource_injective (hof.symm.trans hresource)
        exact (hresults result hresult).1 hgap
    · rintro ⟨result, hresult, rfl, hwired⟩
      exact (hresults result hresult).2 hwired

/-- What a call has done: the results of the three channels, and when each of them is sound -/
structure Onboarded (rt : ObservabilityRuntime) (o : ObservabilityOnboarder) (e : ServiceEntity)
    (past log : ObservabilityLog) (report : OnboardingReport) (next : OnboarderCache)
    (metrics logs dashboards : ChannelResult) : Prop where
  channels : report.channels = [metrics, logs, dashboards]
  metricsChannel : metrics.channel = .metrics
  logsChannel : logs.channel = .logs
  dashboardsChannel : dashboards.channel = .dashboards
  metricsGap : metrics.status = .gap → Absent rt o e past log .metrics
  metricsWired : metrics.status = .wired → Found rt o e past log .metrics
  logsGap : (logs.status = .gap → Absent rt o e past log .logs) ↔ LogsAnswer rt o log
  logsWired : logs.status = .wired → Found rt o e past log .logs
  dashboardsGap : (dashboards.status = .gap → Absent rt o e past log .dashboards) ↔ GrafanaAnswers log
  dashboardsWired : dashboards.status = .wired → Found rt o e past log .dashboards
  fetched : GrafanaAnswers log → Fetched (past ++ log) next.grafana
  observed : ∀ obs ∈ report.observations, ∃ result ∈ report.channels, result.status = .gap ∧
    obs.resource = ObservabilityOnboarder.gapResource e result.channel

/-- A call never throws, whatever is answered. -/
theorem onboard_talks {r : Except JsString (OnboardingReport × OnboarderCache)}
    (hcache : Fetched past cache.grafana) (h : Talks anyReply (o.onboard rt cache e) log r) :
    ∃ report next metrics logs dashboards, r = .ok (report, next) ∧
      Onboarded rt o e past log report next metrics logs dashboards := by
  obtain ⟨checkedAt, rest, hchecks, rfl⟩ := talks_inquire_bind h
  rcases talks_bind.mp hchecks with ⟨_, hfail, -⟩ | ⟨metrics, first, rest, hfirst, hafterMetrics, rfl⟩
  · obtain ⟨_, _, hok, -⟩ := checkMetricsChannel_talks hfail
    cases hok
  obtain ⟨result, base, hok, hmetrics, hfirstQuiet, hgapMetrics, hwiredMetrics⟩ :=
    checkMetricsChannel_talks hfirst
  obtain rfl := Except.ok.inj hok
  rcases talks_bind.mp hafterMetrics with ⟨_, hfail, -⟩ | ⟨logs, second, rest, hsecond, hafterLogs, rfl⟩
  · obtain ⟨_, hok, -⟩ := checkLogsChannel_talks hfail
    cases hok
  obtain ⟨logs, hok, hlogs, hsecondQuiet, hwiredLogs, hgapLogs⟩ := checkLogsChannel_talks hsecond
  obtain rfl := Except.ok.inj hok
  rcases talks_bind.mp hafterLogs with
    ⟨_, hfail, -⟩ | ⟨dashboards, third, rest, hthird, hafterDashboards, rfl⟩
  · obtain ⟨_, _, hok, -⟩ := checkDashboardsChannel_talks hcache hfail
    cases hok
  obtain ⟨dashboards, grafana, hok, hdashboards, hthirdQuiet, hwiredDashboards, hgapDashboards, hfetched⟩ :=
    checkDashboardsChannel_talks hcache hthird
  obtain rfl := Except.ok.inj hok
  rcases talks_bind.mp hafterDashboards with ⟨_, hfail, -⟩ | ⟨observations, fourth, rest, hfourth, hend, rfl⟩
  · obtain ⟨_, hok, -⟩ := gapObservations_talks hfail
    cases hok
  obtain ⟨observations, hok, hfourthQuiet, hobservations⟩ := gapObservations_talks hfourth
  obtain rfl := Except.ok.inj hok
  obtain ⟨rfl, rfl⟩ := talks_done.mp hend
  have hfourthNone (channel : OnboardingChannel) : ∀ x ∈ fourth ++ [], x.ask.backendOf ≠ some channel := by
    intro x hx
    rw [List.append_nil] at hx
    rw [hfourthQuiet x hx]
    exact nofun
  have hclock (channel : OnboardingChannel) : ObservabilityAsk.clock.backendOf ≠ some channel := nofun
  -- the log is the clock, then the three checks, then the ids of the observations
  have hlogsAnswers : logsAnswers (⟨.clock, checkedAt⟩ :: (first ++ (second ++ (third ++ (fourth ++ []))))) =
      logsAnswers second := by
    have hbefore : ∀ x ∈ ⟨.clock, checkedAt⟩ :: first, x.ask.backendOf ≠ some .logs :=
      List.forall_mem_cons.mpr ⟨hclock .logs, fun x hx => (hfirstQuiet x hx).1⟩
    have hafter := List.forall_mem_append.mpr ⟨hthirdQuiet, hfourthNone .logs⟩
    rw [← List.cons_append, logsAnswers_between hbefore hafter]
  have hgrafanaAnswers : grafanaAnswers
      (⟨.clock, checkedAt⟩ :: (first ++ (second ++ (third ++ (fourth ++ []))))) = grafanaAnswers third := by
    have hbefore : ∀ x ∈ ⟨.clock, checkedAt⟩ :: (first ++ second), x.ask.backendOf ≠ some .dashboards :=
      List.forall_mem_cons.mpr ⟨hclock .dashboards,
        List.forall_mem_append.mpr ⟨fun x hx => (hfirstQuiet x hx).2, hsecondQuiet⟩⟩
    rw [← List.append_assoc, ← List.cons_append, grafanaAnswers_between hbefore (hfourthNone .dashboards)]
  have hprometheus {a : Except JsString HttpResponse} (ha : a ∈ prometheusAnswers first) :
      a ∈ prometheusAnswers (⟨.clock, checkedAt⟩ :: (first ++ (second ++ (third ++ (fourth ++ []))))) := by
    obtain ⟨x, hx, hanswer⟩ := List.mem_filterMap.mp ha
    exact List.mem_filterMap.mpr ⟨x, List.mem_cons_of_mem _ (List.mem_append_left _ hx), hanswer⟩
  -- each channel is judged by the answers of its own part of the log
  refine ⟨_, _, result, logs, dashboards, rfl, rfl, hmetrics, hlogs, hdashboards, ?_, ?_, ?_, ?_, ?_, ?_, ?_,
    hobservations⟩
  · intro hgap
    obtain ⟨a, ha, htargets⟩ := hgapMetrics hgap
    exact ⟨a, hprometheus ha, htargets⟩
  · intro hwired
    obtain ⟨a, ha, htargets⟩ := hwiredMetrics hwired
    exact ⟨a, hprometheus ha, htargets⟩
  · simp only [Absent, LogsAnswer, hlogsAnswers]
    exact hgapLogs
  · simp only [Found, hlogsAnswers]
    exact hwiredLogs
  · simp only [Absent, GrafanaAnswers, grafanaAnswers_append past, hgrafanaAnswers]
    simp only [Absent, grafanaAnswers_append past] at hgapDashboards
    exact hgapDashboards
  · simp only [Found, grafanaAnswers_append past, hgrafanaAnswers]
    simp only [Found, grafanaAnswers_append past] at hwiredDashboards
    exact hwiredDashboards
  · simp only [Fetched, GrafanaAnswers, grafanaAnswers_append past, hgrafanaAnswers]
    simp only [Fetched, grafanaAnswers_append past] at hfetched
    exact hfetched

/-- A call is sound just in case its backends answer. -/
theorem Onboarded.sound_iff {c : OnboardCall} {next : OnboarderCache}
    {metrics logs dashboards : ChannelResult}
    (h : Onboarded rt o c.entity past c.log c.report next metrics logs dashboards) :
    SoundReport rt o past c ↔ BackendsAnswer rt o c := by
  rw [soundReport_iff h.observed, h.channels, BackendsAnswer, ← h.logsGap, ← h.dashboardsGap,
    List.forall_mem_cons,
    List.forall_mem_cons, List.forall_mem_singleton, h.metricsChannel, h.logsChannel, h.dashboardsChannel]
  constructor
  · rintro ⟨-, hlogs, hdashboards⟩
    exact ⟨hlogs.1, hdashboards.1⟩
  · rintro ⟨hlogs, hdashboards⟩
    exact ⟨⟨h.metricsGap, h.metricsWired⟩, ⟨hlogs, h.logsWired⟩, hdashboards, h.dashboardsWired⟩

/-- The registry forgets its catalogue and its endpoint. -/
def OnboarderCache.invalidate (cache : OnboarderCache) : OnboarderCache := { cache with grafana := .empty }

/-- Calls of `onboard` one after the other, with any answers; between two of them the registry may be
invalidated. -/
def Onboards (rt : ObservabilityRuntime) (o : ObservabilityOnboarder) :
    OnboarderCache → List OnboardCall → Prop
  | _, [] => True
  | cache, c :: calls => ∃ next, Talks anyReply (o.onboard rt cache c.entity) c.log (.ok (c.report, next)) ∧
      (Onboards rt o next calls ∨ Onboards rt o next.invalidate calls)

/-- Every report is sound when it is made. -/
def SoundThroughout (rt : ObservabilityRuntime) (o : ObservabilityOnboarder) :
    ObservabilityLog → List OnboardCall → Prop
  | _, [] => True
  | past, c :: calls => SoundReport rt o past c ∧ SoundThroughout rt o (past ++ c.log) calls

theorem fetched_empty : Fetched past .empty := fun _ h => by cases h

theorem soundThroughout_iff {calls : List OnboardCall} (hcache : Fetched past cache.grafana)
    (h : Onboards rt o cache calls) :
    SoundThroughout rt o past calls ↔ ∀ c ∈ calls, BackendsAnswer rt o c := by
  induction calls generalizing past cache with
  | nil => exact iff_of_true trivial fun c hc => absurd hc List.not_mem_nil
  | cons c calls ih =>
    obtain ⟨next, htalks, hcalls⟩ := h
    obtain ⟨_, _, metrics, logs, dashboards, hok, hdone⟩ := onboard_talks hcache htalks
    obtain ⟨rfl, rfl⟩ := Prod.mk.inj (Except.ok.inj hok)
    have hrest (hanswer : BackendsAnswer rt o c) :
        SoundThroughout rt o (past ++ c.log) calls ↔ ∀ c ∈ calls, BackendsAnswer rt o c := by
      rcases hcalls with hcalls | hcalls
      · exact ih (hdone.fetched hanswer.2) hcalls
      · exact ih fetched_empty hcalls
    rw [SoundThroughout, List.forall_mem_cons, hdone.sound_iff]
    exact and_congr_right hrest

end Calls

/-- In every run of an onboarder all reports are sound just in case the backends of logs and Grafana answer in
all calls. -/
theorem gaps_sound_iff (rt : ObservabilityRuntime) (o : ObservabilityOnboarder) (calls : List OnboardCall)
    (h : Onboards rt o .empty calls) :
    SoundThroughout rt o [] calls ↔ ∀ c ∈ calls, BackendsAnswer rt o c :=
  soundThroughout_iff fetched_empty h

/-! ### One service -/

def sampleObservability : ObservabilityRuntime := ⟨id, fun _ => [], [], fun _ => none, fun l => ⟨l, .refl l⟩⟩

/-- An onboarder that has Loki only -/
def lokiOnboarder : ObservabilityOnboarder where
  prometheusEndpointUrl := none
  graphStore := false
  logsService := some ⟨fun
    | .loki => some (js "http://loki:3100")
    | .opensearch => none, fun _ => ⟨none, none, []⟩, false⟩
  grafanaRegistry := none
  platformId := js "observability"

def webService : ServiceEntity := ⟨js "service:nas:web", js "web", []⟩

/-- What is asked and answered in a call in which Loki gives an answer without entries -/
def lokiLog (request : LogsRequest) (answer : Except JsString HttpResponse) : ObservabilityLog :=
  [⟨.clock, js "1970-01-01T00:00:00.000Z"⟩, ⟨.dateNow, ⟨0, Nat.zero_le _⟩⟩, ⟨.logs .loki request, answer⟩,
    ⟨.randomUuid, js "1"⟩]

/-- An answer of success without a stream -/
def noStreams : Except JsString HttpResponse :=
  .ok ⟨true, .ok (.obj [(js "status", .str (js "success")), (js "data", .obj [(js "result", .arr [])])])⟩

/-- There is no stream in what Loki answers. -/
def Streamless (answer : Except JsString HttpResponse) : Prop := lokiResult answer = none ∨ lokiResult answer = some []

section Streamless

variable (rt : ObservabilityRuntime) {service : LogsService} {o : ObservabilityOnboarder} (q : LogQuery)
  {url : JsString} {answer : Except JsString HttpResponse} (nowMs : EpochMs)

theorem queryLoki_streamless (h : Streamless answer) : ∃ request, Talks anyReply (service.queryLoki rt q url)
    [⟨.dateNow, nowMs⟩, ⟨.logs .loki request, answer⟩] (.ok (some [])) := by
  refine ⟨_, .ask trivial (.ask trivial ?_)⟩
  rcases h with h | h
  · simp only [done_bind, h]
    exact .done _
  · simp only [done_bind, h]
    exact .done _

/-- The service has a URL of Loki alone. -/
structure HasLokiAlone (service : LogsService) (url : JsString) : Prop where
  loki : service.overrideUrl .loki = some url
  opensearch : service.overrideUrl .opensearch = none
  graphStore : service.graphStore = false

theorem query_streamless (hservice : HasLokiAlone service url) (h : Streamless answer) : ∃ request result,
    Talks anyReply (service.query rt q) [⟨.dateNow, nowMs⟩, ⟨.logs .loki request, answer⟩] (.ok result) ∧
      result.entries = [] ∧ result.backends .loki = .ok := by
  obtain ⟨request, hloki⟩ : ∃ request, Talks anyReply (service.queryLoki rt q url)
      [⟨.dateNow, nowMs⟩, ⟨.logs .loki request, answer⟩] (.ok (some [])) := queryLoki_streamless rt q nowMs h
  have hresolve : service.resolveEndpoints rt = .done service.overrideUrl := by
    rw [LogsService.resolveEndpoints, hservice.graphStore]
    exact if_neg (by simp)
  have hbackend : Talks anyReply (service.queryBackend rt q .loki (some url))
      [⟨.dateNow, nowMs⟩, ⟨.logs .loki request, answer⟩] (.ok (.ok, [])) :=
    talks_bind.mpr (.inr ⟨some [], _, [], hloki, .done _, rfl⟩)
  refine ⟨request, ?result, ?talks, ?entries, ?backends⟩
  case talks =>
    rw [LogsService.query, hresolve]
    refine talks_bind.mpr (.inr ⟨_, [], _, .done _, ?_, rfl⟩)
    rw [hservice.loki, hservice.opensearch]
    refine talks_bind.mpr (.inr ⟨_, _, [], hbackend, ?_, rfl⟩)
    exact .done _
  case entries =>
    have hsorted : LogsService.sortEntries rt [] = [] := (sortEntries_perm []).eq_nil
    change (LogsService.sortEntries rt []).take _ = []
    rw [hsorted, List.take_nil]
  case backends => rfl

theorem checkLogsChannel_streamless (ho : o.logsService = some service) (hservice : HasLokiAlone service url)
    (h : Streamless answer) (e : ServiceEntity) : ∃ request detail, Talks anyReply (o.checkLogsChannel rt e)
      [⟨.dateNow, nowMs⟩, ⟨.logs .loki request, answer⟩] (.ok ⟨.logs, .gap, detail⟩) := by
  obtain ⟨request, result, hquery, hentries, hloki⟩ :=
    query_streamless rt (ObservabilityOnboarder.logsQuery e) nowMs hservice h
  have hasked : ¬ (result.backends .loki = .noEndpoint ∧ result.backends .opensearch = .noEndpoint) := by
    rw [hloki]
    rintro ⟨hnone, -⟩
    cases hnone
  refine ⟨request, ?detail, ?talks⟩
  case talks =>
    rw [ObservabilityOnboarder.checkLogsChannel, ho]
    refine talks_bind.mpr (.inr ⟨_, _, [], hquery, ?_, rfl⟩)
    rw [if_neg hasked, if_neg (not_not.mpr hentries)]
    exact .done _

end Streamless

/-- The call with such an answer reports a gap. -/
theorem lokiOnboarder_streamless (answer : Except JsString HttpResponse) (h : Streamless answer) :
    ∃ request report next, Talks anyReply (lokiOnboarder.onboard sampleObservability .empty webService)
      (lokiLog request answer) (.ok (report, next)) ∧
        ∃ result ∈ report.channels, result.channel = .logs ∧ result.status = .gap := by
  obtain ⟨request, detail, hlogs⟩ : ∃ request detail, Talks anyReply
      (lokiOnboarder.checkLogsChannel sampleObservability webService)
      [⟨.dateNow, ⟨0, Nat.zero_le _⟩⟩, ⟨.logs .loki request, answer⟩] (.ok ⟨.logs, .gap, detail⟩) :=
    checkLogsChannel_streamless _ _ rfl ⟨rfl, rfl, rfl⟩ h webService
  exact ⟨request, _, _, .ask trivial (show Talks anyReply
    ((lokiOnboarder.checkLogsChannel sampleObservability webService).bind _) _ _ from
      talks_bind.mpr (.inr ⟨_, _, _, hlogs, .ask trivial (.done _), rfl⟩)),
    _, List.mem_cons_of_mem _ List.mem_cons_self, rfl, rfl⟩

/-- Loki answers that it has no stream for the service. -/
theorem gaps_sound_loki : ∃ c : OnboardCall,
    c.Missing .logs ∧ SoundThroughout sampleObservability lokiOnboarder [] [c] := by
  obtain ⟨request, report, next, htalks, hgap⟩ := lokiOnboarder_streamless noStreams (.inr rfl)
  refine ⟨⟨webService, lokiLog request noStreams, report⟩, .inl hgap, ?_⟩
  have honboards : Onboards sampleObservability lokiOnboarder .empty
      [⟨webService, lokiLog request noStreams, report⟩] := ⟨next, htalks, .inl trivial⟩
  refine (gaps_sound_iff sampleObservability lokiOnboarder _ honboards).mpr ?_
  refine List.forall_mem_singleton.mpr
    ⟨fun service hservice => .inr ?_, fun a ha => absurd ha List.not_mem_nil⟩
  obtain rfl := Option.some.inj hservice
  exact List.forall_mem_singleton.mpr nofun

/-- Loki cannot be reached. -/
theorem outage_reported : ¬ ∀ (rt : ObservabilityRuntime) (o : ObservabilityOnboarder)
    (calls : List OnboardCall), Onboards rt o .empty calls → SoundThroughout rt o [] calls := by
  intro h
  obtain ⟨request, report, next, htalks, -⟩ :=
    lokiOnboarder_streamless (.error (js "fetch failed")) (.inl rfl)
  obtain ⟨hsound, -⟩ := h sampleObservability lokiOnboarder
    [⟨webService, lokiLog request (.error (js "fetch failed")), report⟩] ⟨next, htalks, .inl trivial⟩
  obtain ⟨_, _, _, _, _, hok, hdone⟩ := onboard_talks fetched_empty htalks
  obtain ⟨rfl, rfl⟩ := Prod.mk.inj (Except.ok.inj hok)
  obtain ⟨hlogs, -⟩ := (Onboarded.sound_iff (c := ⟨webService, _, report⟩) hdone).mp hsound
  rcases hlogs _ rfl with ⟨x, hx, entry, rest, hentries⟩ | hanswered
  · rw [List.mem_singleton.mp hx] at hentries
    cases hentries
  · exact hanswered _ (List.mem_singleton_self _) rfl

end Homelab
