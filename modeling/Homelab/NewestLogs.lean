import Homelab.Comparators
import Homelab.OnboardingGaps

/-! What `LogsService.query` returns of the entries of all registered backends: the newest ones, as long as the
comparator of its sort is consistent on them. -/
namespace Homelab
open Js Dialogue Comparator

/-- What comes of a registered backend: it has no endpoint, its adapter throws, or it returns entries. -/
inductive BackendAnswer
  | noEndpoint
  | threw
  | returned (entries : List LogEntry)

def BackendAnswer.entries : BackendAnswer → List LogEntry
  | .returned entries => entries
  | _ => []

def BackendAnswer.status : BackendAnswer → BackendStatus
  | .noEndpoint => .noEndpoint
  | .threw => .unreachable
  | .returned _ => .ok

/-- An order in which `sort` may leave the lists on which the comparator is not consistent -/
abbrev SortOrder := ∀ l : List LogEntry, {l' : List LogEntry // l'.Perm l}

def ObservabilityRuntime.sorting (rt : ObservabilityRuntime) (order : SortOrder) : ObservabilityRuntime :=
  { rt with anyOrder := order }

/-- `Date.parse(e.timestamp)` -/
def loggedAt (rt : ObservabilityRuntime) (e : LogEntry) : Option ℤ := rt.dateParse e.timestamp

namespace LogsService

variable (rt : ObservabilityRuntime)

/-- What the loop over the registered backends collects -/
def allEntries (answers : List BackendAnswer) : List LogEntry := answers.flatMap BackendAnswer.entries

/-- `query` from the answers of the backends on, in the order in which these are asked -/
def mergeAnswers (q : LogQuery) (answers : List BackendAnswer) : List LogEntry :=
  (sortEntries rt (allEntries answers)).take (sliceEnd (clampLimit q.limit))

end LogsService

open LogsService

/-- The newest of the entries, where those without a valid time may stand anywhere -/
structure NewestMerged (rt : ObservabilityRuntime) (limit : ℕ) (all returned : List LogEntry) : Prop where
  count : returned.length = min limit all.length
  newestFirst : returned.Pairwise fun a b => ∀ s t, loggedAt rt a = some s → loggedAt rt b = some t → t ≤ s
  newest : ∃ dropped, (returned ++ dropped).Perm all ∧ ∀ a ∈ returned, ∀ b ∈ dropped, ∀ s t,
    loggedAt rt a = some s → loggedAt rt b = some t → t ≤ s

/-- All times are valid, or all that are valid are the same. -/
def AgreeingTimes (rt : ObservabilityRuntime) (l : List LogEntry) : Prop :=
  (∀ e ∈ l, ∃ t, loggedAt rt e = some t) ∨
    ∀ a ∈ l, ∀ b ∈ l, ∀ s t, loggedAt rt a = some s → loggedAt rt b = some t → s = t

section

variable {rt : ObservabilityRuntime} {l : List LogEntry}

theorem newerFirst_iff {a b : LogEntry} : newerFirst rt a b = true ↔
    ∀ s t, loggedAt rt a = some s → loggedAt rt b = some t → t ≤ s := by
  rw [newerFirst, loggedAt, loggedAt]
  cases rt.dateParse a.timestamp <;> cases rt.dateParse b.timestamp <;> simp

theorem agreeingTimes_iff : AgreeingTimes rt l ↔ consistentTimes rt l = true := by
  rw [consistentTimes, Bool.or_eq_true, List.all_eq_true, List.all_eq_true, AgreeingTimes]
  refine or_congr ?_ ?_
  · exact forall₂_congr fun e _ => Option.isSome_iff_exists.symm
  · constructor
    · intro h a ha
      refine List.all_eq_true.mpr fun b hb => newerFirst_iff.mpr fun s t hs ht => ?_
      exact (h a ha b hb s t hs ht).ge
    · intro h a ha b hb s t hs ht
      -- the comparator answers both ways round
      have hab := newerFirst_iff.mp (List.all_eq_true.mp (h a ha) b hb) s t hs ht
      have hba := newerFirst_iff.mp (List.all_eq_true.mp (h b hb) a ha) t s ht hs
      omega

theorem sorted_of_agreeing (h : AgreeingTimes rt l) :
    (sortEntries rt l).Pairwise fun a b => ∀ s t, loggedAt rt a = some s → loggedAt rt b = some t → t ≤ s := by
  have hconsistent := agreeingTimes_iff.mp h
  rw [sortEntries, if_pos hconsistent]
  have htotal : TotalOn (newerFirst rt) l := consistent_totalOn hconsistent
  exact htotal.pairwise_insertionSort.imp fun hab => newerFirst_iff.mp hab

/-- A sorted list is cut into the newest entries and the rest. -/
theorem newestMerged_take {sorted : List LogEntry} {limit : ℕ} (hperm : sorted.Perm l)
    (hsorted : sorted.Pairwise fun a b => ∀ s t, loggedAt rt a = some s → loggedAt rt b = some t → t ≤ s) :
    NewestMerged rt limit l (sorted.take limit) := by
  have hparts : (sorted.take limit ++ sorted.drop limit).Pairwise fun a b =>
      ∀ s t, loggedAt rt a = some s → loggedAt rt b = some t → t ≤ s := by
    rwa [List.take_append_drop]
  refine ⟨?_, (List.pairwise_append.mp hparts).1, sorted.drop limit, ?_, (List.pairwise_append.mp hparts).2.2⟩
  · rw [List.length_take, hperm.length_eq]
  · rwa [List.take_append_drop]

/-- Where an older entry stands first, what is returned is not the newest. -/
theorem not_newestMerged {a b : LogEntry} {rest : List LogEntry} {limit : ℕ} {s t : ℤ} (hlimit : limit ≠ 0)
    (hperm : (a :: rest).Perm l) (hb : b ∈ rest) (hs : loggedAt rt a = some s) (ht : loggedAt rt b = some t)
    (hlt : s < t) : ¬NewestMerged rt limit l ((a :: rest).take limit) := by
  obtain ⟨n, rfl⟩ := Nat.exists_eq_succ_of_ne_zero hlimit
  rw [List.take_succ_cons]
  intro h
  have hfirst : ∀ c ∈ rest.take n, ∀ u, loggedAt rt c = some u → u ≤ s := by
    intro c hc u hu
    exact (List.pairwise_cons.mp h.newestFirst).1 c hc s u hs hu
  obtain ⟨dropped, hdropped, hnewest⟩ := h.newest
  -- the newer entry has been returned behind the older one, or has been dropped
  have hmem : b ∈ a :: (rest.take n ++ dropped) :=
    hdropped.mem_iff.mpr (hperm.mem_iff.mp (List.mem_cons_of_mem a hb))
  rcases List.mem_cons.mp hmem with rfl | hmem
  · rw [hs] at ht
    cases ht
    exact absurd hlt (lt_irrefl s)
  · rcases List.mem_append.mp hmem with htaken | hleft
    · exact absurd (hfirst b htaken t ht) (not_le.mpr hlt)
    · exact absurd (hnewest a List.mem_cons_self b hleft s t hs ht) (not_le.mpr hlt)

/-- Where the comparator is not consistent, `sort` may leave an older entry first. -/
theorem exists_order_older (h : ¬AgreeingTimes rt l) :
    ∃ (order : SortOrder) (a b : LogEntry) (rest : List LogEntry) (s t : ℤ),
      sortEntries (rt.sorting order) l = a :: rest ∧ (a :: rest).Perm l ∧ b ∈ rest ∧
        loggedAt rt a = some s ∧ loggedAt rt b = some t ∧ s < t := by
  classical
  have hinconsistent : consistent (loggedAt rt) l = false := Bool.not_eq_true _ ▸ mt agreeingTimes_iff.mpr h
  obtain ⟨a, ha, b, hb, s, t, hs, ht, hlt⟩ := exists_earlier hinconsistent
  obtain ⟨before, after, rfl⟩ := List.append_of_mem ha
  have hperm : (a :: (before ++ after)).Perm (before ++ a :: after) := List.perm_middle.symm
  have hrest : b ∈ before ++ after := by
    rcases List.mem_cons.mp (hperm.mem_iff.mpr hb) with rfl | hmem
    · rw [hs] at ht
      cases ht
      exact absurd hlt (lt_irrefl s)
    · exact hmem
  let order : SortOrder := fun l' =>
    if hsame : l' = before ++ a :: after then ⟨a :: (before ++ after), hsame ▸ hperm⟩ else ⟨l', .refl l'⟩
  refine ⟨order, a, b, before ++ after, s, t, ?_, hperm, hrest, hs, ht, hlt⟩
  have hleft : (order (before ++ a :: after)).1 = a :: (before ++ after) := congrArg Subtype.val (dif_pos rfl)
  have hinconsistent : ¬consistentTimes (rt.sorting order) (before ++ a :: after) = true := mt agreeingTimes_iff.mpr h
  rw [sortEntries, if_neg hinconsistent]
  exact hleft

end

/-- Whatever order `sort` leaves, the newest entries of all backends are returned, just in case all times of the
entries are valid, or all valid ones the same, or no entry is to be returned. -/
theorem mergesNewest_iff (rt : ObservabilityRuntime) (q : LogQuery) (answers : List BackendAnswer) :
    (∀ order, NewestMerged rt (sliceEnd (clampLimit q.limit)) (allEntries answers)
      (mergeAnswers (rt.sorting order) q answers)) ↔
      AgreeingTimes rt (allEntries answers) ∨ sliceEnd (clampLimit q.limit) = 0 := by
  constructor
  · intro h
    by_contra hnot
    rw [not_or] at hnot
    obtain ⟨order, a, b, rest, s, t, hsorted, hperm, hb, hs, ht, hlt⟩ := exists_order_older hnot.1
    have hreturned := h order
    rw [mergeAnswers, hsorted] at hreturned
    exact not_newestMerged hnot.2 hperm hb hs ht hlt hreturned
  · intro h order
    rcases h with hagree | hnone
    · have hsorting : AgreeingTimes (rt.sorting order) _ := hagree
      exact newestMerged_take (sortEntries_perm _) (sorted_of_agreeing hsorting)
    · rw [mergeAnswers, hnone, List.take_zero]
      exact ⟨(Nat.zero_min _).symm, List.Pairwise.nil, _, .refl _, fun a ha => absurd ha List.not_mem_nil⟩

/-! ### An entry without a date -/

/-- Three dates as `Date.parse` reads them -/
def parseDates (s : JsString) : Option ℤ :=
  if s = js "2026-03-01T00:00:00.000Z" then some 1772323200000
  else if s = js "2026-03-02T00:00:00.000Z" then some 1772409600000
  else if s = js "2026-03-03T00:00:00.000Z" then some 1772496000000
  else none

/-- What an insertion sort, which short lists are sorted by, makes of every list -/
def insertionOrder : SortOrder := fun l =>
  ⟨_, List.perm_insertionSort (fun a b => Comparator.laterFirst (fun e => parseDates e.timestamp) a b = true) l⟩

def datedRuntime : ObservabilityRuntime where
  toLowerCase s := s
  isoText _ := []
  isoNow := js "2026-03-03T00:00:00.000Z"
  dateParse := parseDates
  anyOrder := insertionOrder

def loggedEntry (source timestamp : String) : LogEntry := ⟨js timestamp, none, js "up", js source, []⟩

/-- An entry of Loki, and two of OpenSearch of which the first has no date -/
def undatedAnswers : List BackendAnswer :=
  [.returned [loggedEntry "loki" "2026-03-01T00:00:00.000Z"],
    .returned [loggedEntry "opensearch" "yesterday", loggedEntry "opensearch" "2026-03-02T00:00:00.000Z"]]

def latestQuery : LogQuery := ⟨none, none, none, none, some (.ofNat 1), none⟩

/-- The entry without a date keeps the newer entry from coming first. -/
theorem mergesNewest_fails : ¬NewestMerged datedRuntime (sliceEnd (clampLimit latestQuery.limit))
    (allEntries undatedAnswers) (mergeAnswers datedRuntime latestQuery undatedAnswers) := by
  have hlimit : sliceEnd (clampLimit latestQuery.limit) = 1 := by decide +kernel
  have hsorted : sortEntries datedRuntime (allEntries undatedAnswers) = allEntries undatedAnswers := by rfl
  rw [mergeAnswers, hsorted, hlimit]
  exact not_newestMerged (s := 1772323200000) (t := 1772409600000) one_ne_zero (.refl _)
    (List.mem_cons_of_mem _ List.mem_cons_self) rfl rfl (by decide)

/-! ### The two built-in backends -/

section Refinement

variable {rt : ObservabilityRuntime} {service : LogsService} {q : LogQuery} {log : ObservabilityLog}

theorem queryBackend_answer {backend : LogsBackend} {url : Option JsString} {r : BackendStatus × List LogEntry}
    (h : Talks anyReply (service.queryBackend rt q backend url) log (.ok r)) :
    ∃ answer : BackendAnswer, r = (answer.status, answer.entries) := by
  cases url with
  | none =>
    obtain ⟨-, hr⟩ := talks_done.mp h
    exact ⟨.noEndpoint, Except.ok.inj hr⟩
  | some url =>
    have hanswer {query : Check (Option (List LogEntry))}
        {next : Option (List LogEntry) → Check (BackendStatus × List LogEntry)}
        (hsome : ∀ entries, next (some entries) = .done (.ok, entries))
        (hnone : next none = .done (.unreachable, []))
        (h : Talks anyReply (query.bind next) log (.ok r)) :
        ∃ answer : BackendAnswer, r = (answer.status, answer.entries) := by
      rcases talks_bind.mp h with ⟨message, -, hthrown⟩ | ⟨out, first, rest, -, hrest, -⟩
      · cases hthrown
      cases out with
      | none =>
        rw [hnone] at hrest
        exact ⟨.threw, Except.ok.inj (talks_done.mp hrest).2⟩
      | some entries =>
        rw [hsome] at hrest
        exact ⟨.returned entries, Except.ok.inj (talks_done.mp hrest).2⟩
    cases backend with
    | loki => exact hanswer (fun _ => rfl) rfl h
    | opensearch => exact hanswer (fun _ => rfl) rfl h

/-- With the two built-in backends `query` merges their answers. -/
theorem query_merges {result : LogsQueryResult} (h : Talks anyReply (service.query rt q) log (.ok result)) :
    ∃ loki opensearch : BackendAnswer, result.entries = mergeAnswers rt q [loki, opensearch] ∧
      result.backends .loki = loki.status ∧ result.backends .opensearch = opensearch.status := by
  rcases talks_bind.mp h with ⟨message, -, hthrown⟩ | ⟨resolved, _, _, -, hrest, -⟩
  · cases hthrown
  rcases talks_bind.mp hrest with ⟨message, -, hthrown⟩ | ⟨fromLoki, _, _, hloki, hrest, -⟩
  · cases hthrown
  rcases talks_bind.mp hrest with ⟨message, -, hthrown⟩ | ⟨fromOpenSearch, _, _, hopensearch, hrest, -⟩
  · cases hthrown
  obtain ⟨loki, rfl⟩ := queryBackend_answer hloki
  obtain ⟨opensearch, rfl⟩ := queryBackend_answer hopensearch
  obtain ⟨-, hr⟩ := talks_done.mp hrest
  have hresult := Except.ok.inj hr
  refine ⟨loki, opensearch, ?_, ?_, ?_⟩
  · have hall : allEntries [loki, opensearch] = loki.entries ++ opensearch.entries := by
      rw [allEntries, List.flatMap_cons, List.flatMap_cons, List.flatMap_nil, List.append_nil]
    rw [hresult, mergeAnswers, hall]
  · rw [hresult]
  · rw [hresult]

end Refinement

end Homelab
