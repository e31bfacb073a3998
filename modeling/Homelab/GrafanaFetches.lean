import Homelab.Automaton
import Homelab.GrafanaRegistry

/-! `fetchDashboards` calls on one registry, which may overlap: each waits for the endpoint, for the answer of
Grafana and for its body, and keeps the catalogue that it ends with. -/
namespace Homelab
open Js

/-! ### Calls -/

/-- Where a call stands: it waits for the graph, has its endpoint, waits for the answer or for its body, or has
returned. -/
inductive FetchStage
  | discovering
  | endpoint (base : Option JsString)
  | requested (base : JsString)
  | reading (json : Except JsString JsValue)
  | returned (dashboards : List GrafanaDashboard)

/-- How a call ends that has found no catalogue: without a request, with one that failed, or with dashboards -/
inductive FetchEnd
  | noEndpoint
  | failed
  | fetched (dashboards : List GrafanaDashboard)

/-- What is returned and kept -/
def FetchEnd.dashboards : FetchEnd → List GrafanaDashboard
  | .noEndpoint => []
  | .failed => []
  | .fetched dashboards => dashboards

/-- What a request gave, if there was one; `none` for a failed one -/
def FetchEnd.answer : FetchEnd → List (Option (List GrafanaDashboard))
  | .noEndpoint => []
  | .failed => [none]
  | .fetched dashboards => [some dashboards]

/-- The end of a call whose answer has this body -/
def bodyEnd (json : Except JsString JsValue) : FetchEnd :=
  match answeredDashboards (.ok ⟨true, json⟩) with
  | some dashboards => .fetched dashboards
  | none => .failed

/-- What the registry keeps, its calls, and what the requests that have ended gave, in the order of their ends -/
structure FetchState where
  cache : GrafanaCache
  calls : List FetchStage
  answers : List (Option (List GrafanaDashboard))

def FetchState.fresh : FetchState := ⟨.empty, [], []⟩

/-- A call is made; or the graph has answered one, or it goes on with its endpoint, or Grafana has answered it,
or its body has been read. -/
inductive FetchEvent
  | fetch
  | discovered (call : ℕ) (services : Except JsString (List ServiceEntity))
  | resume (call : ℕ)
  | answered (call : ℕ) (answer : Except JsString HttpResponse)
  | parsed (call : ℕ)

/-! ### Steps -/

section Steps

variable (rt : ObservabilityRuntime) (registry : GrafanaRegistry)

/-- `resolveEndpoint` up to its `await`: what is kept, and where the call stands -/
def beginResolve (cache : GrafanaCache) : GrafanaCache × FetchStage :=
  match cache.resolvedBase, registry.endpointUrl with
  | some base, _ => (cache, .endpoint base)
  | none, some (c :: cs) =>
    let base := some (stripSlash (c :: cs))
    ({ cache with resolvedBase := some base }, .endpoint base)
  | none, _ =>
    if registry.graphStore then (cache, .discovering)
    else ({ cache with resolvedBase := some none }, .endpoint none)

/-- `fetchDashboards` up to its first `await` -/
def beginFetch (cache : GrafanaCache) : GrafanaCache × FetchStage :=
  match cache.catalogue with
  | some dashboards => (cache, .returned dashboards)
  | none => beginResolve registry cache

/-- What the graph says of Grafana -/
def discoveredBase (services : Except JsString (List ServiceEntity)) : Option JsString :=
  match services with
  | .ok services => discoverGrafanaEndpoint rt.toLowerCase services
  | .error _ => none

/-- The call that ends with this event, and how -/
def FetchState.ending (s : FetchState) : FetchEvent → Option (ℕ × FetchEnd)
  | .resume i =>
    match s.calls[i]? with
    | some (.endpoint none) => some (i, .noEndpoint)
    | _ => none
  | .answered i (.error _) => some (i, .failed)
  | .answered i (.ok response) => if response.ok then none else some (i, .failed)
  | .parsed i =>
    match s.calls[i]? with
    | some (.reading json) => some (i, bodyEnd json)
    | _ => none
  | _ => none

/-- `this.catalogue = dashboards; return dashboards` -/
def FetchState.finish (s : FetchState) (i : ℕ) (e : FetchEnd) : FetchState where
  cache := { s.cache with catalogue := some e.dashboards }
  calls := s.calls.set i (.returned e.dashboards)
  answers := s.answers ++ e.answer

/-- An event with which no call ends -/
def FetchState.move (s : FetchState) : FetchEvent → FetchState
  | .fetch =>
    let begun := beginFetch registry s.cache
    { s with cache := begun.1, calls := s.calls ++ [begun.2] }
  | .discovered i services =>
    let base := discoveredBase rt services
    { s with cache := { s.cache with resolvedBase := some base }, calls := s.calls.set i (.endpoint base) }
  | .resume i =>
    match s.calls[i]? with
    | some (.endpoint (some base)) => { s with calls := s.calls.set i (.requested base) }
    | _ => s
  | .answered i (.ok response) => { s with calls := s.calls.set i (.reading response.json) }
  | _ => s

/-- All that can happen to the calls on one registry -/
def grafanaFetches : Automaton FetchState FetchEvent where
  allowed s e :=
    match e with
    | .fetch => True
    | .discovered i _ => s.calls[i]? = some .discovering
    | .resume i => ∃ base, s.calls[i]? = some (.endpoint base)
    | .answered i _ => ∃ base, s.calls[i]? = some (.requested base)
    | .parsed i => ∃ json, s.calls[i]? = some (.reading json)
  next s e :=
    match s.ending e with
    | some (i, ended) => s.finish i ended
    | none => s.move rt registry e

end Steps

/-! ### The law -/

/-- The dashboards of the first request that succeeded -/
def FetchState.firstSuccess (s : FetchState) : Option (List GrafanaDashboard) := s.answers.findSome? id

/-- Where a call stands that is made now -/
def FetchState.callNow (registry : GrafanaRegistry) (s : FetchState) : FetchStage :=
  (beginFetch registry s.cache).2

/-- A call that is made now returns the first catalogue that was fetched; as long as all requests have failed,
it has an endpoint to query instead. -/
def RemembersSuccess (registry : GrafanaRegistry) (s : FetchState) : Prop :=
  match s.firstSuccess with
  | some dashboards => s.callNow registry = .returned dashboards
  | none => s.answers ≠ [] → ∃ base, s.callNow registry = .endpoint (some base)

/-- No request fails before one has succeeded, and each call that ends after that ends with the same catalogue. -/
def EndsAlike (s : FetchState) (e : FetchEvent) : Prop :=
  ∀ i ended, s.ending e = some (i, ended) →
    match s.firstSuccess with
    | some dashboards => ended.dashboards = dashboards
    | none => ended ≠ .failed

/-- Where a request has ended, a catalogue is kept. -/
def KeepsEnds (s : FetchState) : Prop := s.answers ≠ [] → s.cache.catalogue ≠ none

section Law

variable {rt : ObservabilityRuntime} {registry : GrafanaRegistry} {s : FetchState}

/-- Only the catalogue that is kept is returned at once. -/
theorem callNow_returned_iff {dashboards : List GrafanaDashboard} :
    s.callNow registry = .returned dashboards ↔ s.cache.catalogue = some dashboards := by
  unfold FetchState.callNow beginFetch
  cases s.cache.catalogue with
  | some kept =>
    simp only [FetchStage.returned.injEq, Option.some_inj]
  | none =>
    refine iff_of_false ?_ nofun
    simp only [beginResolve]
    split <;> (try split_ifs) <;> exact nofun

theorem keepsEnds_law (h : KeepsEnds s) :
    RemembersSuccess registry s ↔
      s.answers = [] ∨ ∃ dashboards, s.firstSuccess = some dashboards ∧ s.cache.catalogue = some dashboards := by
  unfold RemembersSuccess
  cases hfirst : s.firstSuccess with
  | some dashboards =>
    have hne : s.answers ≠ [] := fun hnil => by
      rw [FetchState.firstSuccess, hnil] at hfirst
      cases hfirst
    simp only [callNow_returned_iff, hne, false_or, Option.some_inj, exists_eq_left']
  | none =>
    have hnone : ¬∃ dashboards, none = some dashboards ∧ s.cache.catalogue = some dashboards := nofun
    rw [or_iff_left hnone]
    refine ⟨fun hlaw => ?_, fun hnil hne => absurd hnil hne⟩
    by_contra hne
    -- a catalogue is kept, which the call returns at once
    obtain ⟨base, hbase⟩ := hlaw hne
    obtain ⟨kept, hkept⟩ := Option.ne_none_iff_exists'.mp (h hne)
    rw [callNow_returned_iff.mpr hkept] at hbase
    cases hbase

theorem beginFetch_catalogue (cache : GrafanaCache) : (beginFetch registry cache).1.catalogue = cache.catalogue := by
  unfold beginFetch
  split
  · rfl
  · unfold beginResolve
    split <;> (try split_ifs) <;> rfl

/-- An event with which no call ends leaves the catalogue and the answers as they are. -/
theorem move_frame (rt : ObservabilityRuntime) (registry : GrafanaRegistry) (s : FetchState) (e : FetchEvent) :
    (s.move rt registry e).cache.catalogue = s.cache.catalogue ∧ (s.move rt registry e).answers = s.answers := by
  cases e with
  | fetch => exact ⟨beginFetch_catalogue s.cache, rfl⟩
  | discovered i services => exact ⟨rfl, rfl⟩
  | resume i =>
    simp only [FetchState.move]
    split <;> exact ⟨rfl, rfl⟩
  | answered i answer => cases answer <;> exact ⟨rfl, rfl⟩
  | parsed i => exact ⟨rfl, rfl⟩

theorem next_of_ending {e : FetchEvent} {i : ℕ} {ended : FetchEnd} (h : s.ending e = some (i, ended)) :
    (grafanaFetches rt registry).next s e = s.finish i ended := by
  simp only [grafanaFetches, h]

theorem next_of_not_ending {e : FetchEvent} (h : s.ending e = none) :
    (grafanaFetches rt registry).next s e = s.move rt registry e := by
  simp only [grafanaFetches, h]

theorem keepsEnds_next (h : KeepsEnds s) (e : FetchEvent) : KeepsEnds ((grafanaFetches rt registry).next s e) := by
  cases hending : s.ending e with
  | some ended =>
    rw [next_of_ending hending]
    exact fun _ => nofun
  | none =>
    obtain ⟨hcatalogue, hanswers⟩ := move_frame rt registry s e
    rw [next_of_not_ending hending, KeepsEnds, hcatalogue, hanswers]
    exact h

theorem firstSuccess_finish (i : ℕ) (ended : FetchEnd) :
    (s.finish i ended).firstSuccess = s.firstSuccess.or (ended.answer.findSome? id) := List.findSome?_append

/-- The end of a call keeps the law just in case it is like the first success. -/
theorem remembersSuccess_finish {i : ℕ} {ended : FetchEnd} (hkeeps : KeepsEnds s)
    (hlaw : RemembersSuccess registry s) :
    RemembersSuccess registry (s.finish i ended) ↔
      match s.firstSuccess with
      | some dashboards => ended.dashboards = dashboards
      | none => ended ≠ .failed := by
  have hkeeps' : KeepsEnds (s.finish i ended) := fun _ => nofun
  rw [keepsEnds_law hkeeps', firstSuccess_finish]
  obtain hnil | ⟨dashboards, hfirst, -⟩ := (keepsEnds_law hkeeps).mp hlaw
  · have hnone : s.firstSuccess = none := by rw [FetchState.firstSuccess, hnil]; rfl
    rw [hnone]
    cases ended with
    | noEndpoint => exact iff_of_true (.inl (by rw [FetchState.finish, hnil]; rfl)) nofun
    | failed =>
      refine iff_of_false ?_ fun h => h rfl
      rintro (h | ⟨d, h, -⟩)
      · rw [FetchState.finish, hnil] at h
        cases h
      · cases h
    | fetched d => exact iff_of_true (.inr ⟨d, rfl, rfl⟩) nofun
  · have hne : s.answers ++ ended.answer ≠ [] := fun happend => by
      rw [FetchState.firstSuccess, (List.append_eq_nil_iff.mp happend).1] at hfirst
      cases hfirst
    rw [hfirst]
    change (s.answers ++ ended.answer = [] ∨ _) ↔ _
    rw [or_iff_right hne]
    constructor
    · intro ⟨d, hd, hkept⟩
      exact (Option.some.inj hkept).trans (Option.some.inj hd).symm
    · intro hd
      exact ⟨dashboards, rfl, congrArg some hd⟩

theorem remembersSuccess_next {e : FetchEvent} (hkeeps : KeepsEnds s) (hlaw : RemembersSuccess registry s) :
    RemembersSuccess registry ((grafanaFetches rt registry).next s e) ↔ EndsAlike s e := by
  cases hending : s.ending e with
  | none =>
    have hkeeps' : KeepsEnds ((grafanaFetches rt registry).next s e) := keepsEnds_next hkeeps e
    obtain ⟨hcatalogue, hanswers⟩ := move_frame rt registry s e
    refine iff_of_true ?_ fun i ended h => nomatch hending.symm.trans h
    rw [next_of_not_ending hending] at hkeeps' ⊢
    rw [keepsEnds_law hkeeps', FetchState.firstSuccess, hanswers, hcatalogue]
    exact (keepsEnds_law hkeeps).mp hlaw
  | some ended =>
    obtain ⟨i, ended⟩ := ended
    rw [next_of_ending hending, remembersSuccess_finish hkeeps hlaw]
    constructor
    · intro h j ended' hended
      obtain ⟨-, rfl⟩ := Prod.mk.inj (Option.some.inj (hending.symm.trans hended))
      exact h
    · intro h
      exact h i ended hending

end Law

/-- A call alone returns and keeps what `fetchDashboards` gives for the answer to its request. -/
theorem fetchDashboards_alone (rt : ObservabilityRuntime) (registry : GrafanaRegistry) {cache : GrafanaCache}
    {base : JsString} (hcatalogue : cache.catalogue = none) (hbase : cache.resolvedBase = some (some base)) :
    ∃ url headers next, registry.fetchDashboards base cache = .ask (.grafana url headers) next ∧
      ∀ answer, ∃ dashboards events, next answer = .done dashboards ∧
        (grafanaFetches rt registry).Permits Automaton.anyEvent ⟨cache, [], []⟩ events ∧
        (grafanaFetches rt registry).after ⟨cache, [], []⟩ events =
          ⟨⟨some (some base), some dashboards⟩, [.returned dashboards], [answeredDashboards answer]⟩ := by
  obtain ⟨_, _⟩ := cache
  obtain rfl : _ = none := hcatalogue
  obtain rfl : _ = some (some base) := hbase
  refine ⟨_, _, _, rfl, fun answer => ⟨(answeredDashboards answer).getD [], ?_⟩⟩
  match answer with
  | .error message =>
    exact ⟨[.fetch, .resume 0, .answered 0 (.error message)], rfl,
      ⟨trivial, trivial, ⟨_, rfl⟩, trivial, ⟨_, rfl⟩, trivial, trivial⟩, rfl⟩
  | .ok ⟨false, json⟩ =>
    exact ⟨[.fetch, .resume 0, .answered 0 (.ok ⟨false, json⟩)], rfl,
      ⟨trivial, trivial, ⟨_, rfl⟩, trivial, ⟨_, rfl⟩, trivial, trivial⟩, rfl⟩
  | .ok ⟨true, json⟩ =>
    refine ⟨[.fetch, .resume 0, .answered 0 (.ok ⟨true, json⟩), .parsed 0], rfl,
      ⟨trivial, trivial, ⟨_, rfl⟩, trivial, ⟨_, rfl⟩, trivial, ⟨_, rfl⟩, trivial, trivial⟩, ?_⟩
    have hend : (bodyEnd json).answer = [answeredDashboards (.ok ⟨true, json⟩)] ∧
        (bodyEnd json).dashboards = (answeredDashboards (.ok ⟨true, json⟩)).getD [] := by
      unfold bodyEnd
      cases answeredDashboards (.ok ⟨true, json⟩) <;> exact ⟨rfl, rfl⟩
    rw [← hend.1, ← hend.2]
    rfl

/-- The call that an event is about; a new one is none of those there are. -/
def FetchEvent.call : FetchEvent → Option ℕ
  | .fetch => none
  | .discovered i _ => some i
  | .resume i => some i
  | .answered i _ => some i
  | .parsed i => some i

/-- Only the call that an event is about can end with it. -/
theorem call_of_ending {s : FetchState} {e : FetchEvent} {i : ℕ} {ended : FetchEnd}
    (h : s.ending e = some (i, ended)) : e.call = some i := by
  cases e with
  | resume k =>
    simp only [FetchState.ending] at h
    split at h <;> cases h
    rfl
  | answered k answer =>
    cases answer with
    | error message =>
      cases h
      rfl
    | ok response =>
      simp only [FetchState.ending] at h
      split_ifs at h
      cases h
      rfl
  | parsed k =>
    simp only [FetchState.ending] at h
    split at h <;> cases h
    rfl
  | _ => cases h

/-- An event about another call leaves a call where it stands. -/
theorem calls_next_of_ne {rt : ObservabilityRuntime} {registry : GrafanaRegistry} {s : FetchState} {i : ℕ}
    {e : FetchEvent} (hi : i < s.calls.length) (hne : e.call ≠ some i) :
    ((grafanaFetches rt registry).next s e).calls[i]? = s.calls[i]? := by
  have hset {j : ℕ} (stage : FetchStage) (hj : some j ≠ some i) : (s.calls.set j stage)[i]? = s.calls[i]? :=
    List.getElem?_set_ne fun hji => hj (congrArg some hji)
  cases hending : s.ending e with
  | some ended =>
    rw [next_of_ending hending]
    exact hset _ (call_of_ending hending ▸ hne)
  | none =>
    rw [next_of_not_ending hending]
    cases e with
    | fetch => exact List.getElem?_append_left hi
    | discovered j services => exact hset _ hne
    | resume j =>
      simp only [FetchState.move]
      split
      · exact hset _ hne
      · rfl
    | answered j answer =>
      cases answer with
      | error message => rfl
      | ok response => exact hset _ hne
    | parsed j => rfl

/-- A call that has an endpoint asks Grafana, whatever else happens before. -/
theorem endpoint_requests {rt : ObservabilityRuntime} {registry : GrafanaRegistry} {s : FetchState} {i : ℕ}
    {base : JsString} (hcall : s.calls[i]? = some (.endpoint (some base))) (e : FetchEvent)
    (h : (grafanaFetches rt registry).allowed s e) :
    ((grafanaFetches rt registry).next s e).calls[i]? ∈
      [some (.endpoint (some base)), some (.requested base)] := by
  have hi : i < s.calls.length := (List.getElem?_eq_some_iff.mp hcall).1
  by_cases hne : e.call = some i
  · -- of the events about this call, only that it goes on is possible
    cases e with
    | fetch => cases hne
    | resume j =>
      obtain rfl := Option.some.inj hne
      have hending : s.ending (.resume j) = none := by simp only [FetchState.ending, hcall]
      rw [next_of_not_ending hending]
      simp only [FetchState.move, hcall, List.getElem?_set_self hi]
      exact List.mem_cons_of_mem _ List.mem_cons_self
    | discovered j services =>
      obtain rfl := Option.some.inj hne
      cases hcall.symm.trans h
    | answered j answer =>
      obtain rfl := Option.some.inj hne
      obtain ⟨base', hbase⟩ := h
      cases hcall.symm.trans hbase
    | parsed j =>
      obtain rfl := Option.some.inj hne
      obtain ⟨json, hjson⟩ := h
      cases hcall.symm.trans hjson
  · rw [calls_next_of_ne hi hne, hcall]
    exact List.mem_cons_self

/-- In every run of calls on one registry, failed fetches are not remembered and the first successful one is, just
in case no request fails before one has succeeded and all calls that end later end like that one. -/
theorem remembersSuccess_iff (rt : ObservabilityRuntime) (registry : GrafanaRegistry) (events : List FetchEvent)
    (h : (grafanaFetches rt registry).Permits Automaton.anyEvent .fresh events) :
    (grafanaFetches rt registry).Throughout (RemembersSuccess registry) .fresh events ↔
      (grafanaFetches rt registry).Permits EndsAlike .fresh events := by
  have hkeeps : KeepsEnds .fresh := fun hne => absurd rfl hne
  have hlaw : RemembersSuccess registry .fresh := (keepsEnds_law hkeeps).mpr (.inl rfl)
  exact Automaton.throughout_iff hkeeps hlaw (fun s e hs _ => keepsEnds_next hs e)
    (fun s e hs hP _ => remembersSuccess_next hs hP) h

/-! ### A run -/

def configuredRegistry : GrafanaRegistry := ⟨some (js "http://grafana:3000"), none, none, false⟩

/-- The texts and dates are not read where the endpoint is configured. -/
def plainRuntime : ObservabilityRuntime := ⟨id, fun _ => [], [], fun _ => none, fun l => ⟨l, .refl l⟩⟩

/-- A call whose request succeeds, and another one after it -/
def fetchedOnce : List FetchEvent :=
  [.fetch, .resume 0, .answered 0 (.ok ⟨true, .ok (.arr [])⟩), .parsed 0, .fetch]

theorem remembersSuccess_fetchedOnce :
    (grafanaFetches plainRuntime configuredRegistry).Permits Automaton.anyEvent .fresh fetchedOnce ∧
      (grafanaFetches plainRuntime configuredRegistry).Throughout (RemembersSuccess configuredRegistry) .fresh
        fetchedOnce := by
  have hpermits :
      (grafanaFetches plainRuntime configuredRegistry).Permits Automaton.anyEvent .fresh fetchedOnce :=
    ⟨trivial, trivial, ⟨_, rfl⟩, trivial, ⟨_, rfl⟩, trivial, ⟨_, rfl⟩, trivial, trivial, trivial, trivial⟩
  have hnone : ∀ {s e}, s.ending e = none → EndsAlike s e := fun h i ended hended => nomatch h.symm.trans hended
  have hparsed : ∀ {s : FetchState}, s.firstSuccess = none →
      s.ending (.parsed 0) = some (0, .fetched []) → EndsAlike s (.parsed 0) := by
    intro s hfirst hend i ended hended
    obtain ⟨-, rfl⟩ := Prod.mk.inj (Option.some.inj (hend.symm.trans hended))
    rw [hfirst]
    exact nofun
  exact ⟨hpermits, (remembersSuccess_iff _ _ _ hpermits).mpr
    ⟨trivial, hnone rfl, ⟨_, rfl⟩, hnone rfl, ⟨_, rfl⟩, hnone rfl, ⟨_, rfl⟩, hparsed rfl rfl, trivial, hnone rfl,
      trivial⟩⟩

/-- A call whose request fails keeps an empty catalogue, which every later call returns. -/
theorem remembersSuccess_fails :
    ¬∀ events, (grafanaFetches plainRuntime configuredRegistry).Permits Automaton.anyEvent .fresh events →
      (grafanaFetches plainRuntime configuredRegistry).Throughout (RemembersSuccess configuredRegistry) .fresh
        events := by
  intro h
  have hrun := h [.fetch, .resume 0, .answered 0 (.error (js "ECONNREFUSED"))]
    ⟨trivial, trivial, ⟨_, rfl⟩, trivial, ⟨_, rfl⟩, trivial, trivial⟩
  obtain ⟨base, hbase⟩ := hrun.finish (List.cons_ne_nil _ _)
  cases hbase

end Homelab
