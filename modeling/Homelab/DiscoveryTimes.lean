import Homelab.ClassifySightings

/-! When an entity or an edge was first discovered, over any sequence of enumeration passes and upserts
on the graph. -/
namespace Homelab
open Js Locked

/-! ### Passes and upserts -/

/-- A call of `upsertEntity` or `upsertEdge` -/
structure UpsertCall where
  part : GraphPart
  record : Fields

def UpsertCall.run (isDateTime : JsString → Bool) (c : UpsertCall) (doc : GraphDocument) :
    Option GraphDocument := callGraph isDateTime (c.part.op c.record) doc

inductive DiscoveryTurn
  | pass (platformFilter : Option (List JsString)) (platforms : List PlatformVisit)
  | upsert (call : UpsertCall)

/-- What the platforms of a pass have reported, in the order of the calls -/
def visitCalls (p : PlatformVisit) : List UpsertCall :=
  (p.visit.reports .entities).map (UpsertCall.mk .entities) ++
    (p.visit.reports .edges).map (UpsertCall.mk .edges)

/-- The upserts of a turn -/
def DiscoveryTurn.calls : DiscoveryTurn → List UpsertCall
  | .pass platformFilter platforms =>
    (platforms.filter fun p => passesFilter platformFilter p.platformId).flatMap visitCalls
  | .upsert call => [call]

/-- The graph after a turn -/
def DiscoveryTurn.run (isDateTime : JsString → Bool) (doc : GraphDocument) : DiscoveryTurn → GraphDocument
  | .pass platformFilter platforms => (enumerateGraph isDateTime platformFilter platforms doc).1
  | .upsert call => (call.run isDateTime doc).getD doc

/-- The graph after the calls; one that is refused changes nothing. -/
def afterCalls (isDateTime : JsString → Bool) (calls : List UpsertCall) (doc : GraphDocument) :
    GraphDocument := calls.foldl (fun doc c => (c.run isDateTime doc).getD doc) doc

variable {isDateTime : JsString → Bool} {doc doc' : GraphDocument} {part : GraphPart} {id : JsString}
  {e : JsValue} {calls : List UpsertCall}

theorem afterCalls_append (calls calls' : List UpsertCall) (doc : GraphDocument) :
    afterCalls isDateTime (calls ++ calls') doc =
      afterCalls isDateTime calls' (afterCalls isDateTime calls doc) := List.foldl_append

theorem upsertAll_calls (reports : List Fields) (doc : GraphDocument) :
    (upsertAll isDateTime part reports doc).1 =
      afterCalls isDateTime (reports.map (UpsertCall.mk part)) doc := by
  induction reports generalizing doc with
  | nil => rfl
  | cons record reports ih =>
    rw [upsertAll, List.map_cons, afterCalls, List.foldl_cons, UpsertCall.run]
    cases callGraph isDateTime (part.op record) doc with
    | none => exact ih doc
    | some doc' => exact ih doc'

/-- A turn makes its upserts, one after the other. -/
theorem turn_calls (turn : DiscoveryTurn) (doc : GraphDocument) :
    turn.run isDateTime doc = afterCalls isDateTime turn.calls doc := by
  cases turn with
  | upsert call => rfl
  | pass platformFilter platforms =>
    rw [DiscoveryTurn.run, DiscoveryTurn.calls, enumerateGraph]
    induction platforms.filter fun p => passesFilter platformFilter p.platformId generalizing doc with
    | nil => rfl
    | cons p ps ih =>
      rw [enumeratePlatforms, List.flatMap_cons, afterCalls_append]
      dsimp only
      rw [ih]
      congr 1
      obtain ⟨platformId, platformKind, visit⟩ := p
      cases visit with
      | enumerated entities edges =>
        change (upsertAll isDateTime .edges edges (upsertAll isDateTime .entities entities doc).1).1 = _
        rw [upsertAll_calls, upsertAll_calls]
        exact (afterCalls_append _ _ _).symm
      | _ => rfl

/-! ### The law -/

/-- The first date is known to be after the second. -/
def laterThan (dateMs : JsString → Option ℤ) : JsValue → JsValue → Bool
  | .str d, .str l => (dateMs d).any fun dMs => (dateMs l).any fun lMs => lMs < dMs
  | _, _ => false

/-- A record that is in the graph after some of the calls has its `discovered_at` after all calls that
come next, and it is never after its `last_seen`. -/
def KeepsDiscovery (rt : SweepRuntime) (calls : List UpsertCall) : Prop :=
  ∀ before next later, calls = before ++ next ++ later → ∀ (part : GraphPart) id e,
    recordById id (part.records (afterCalls rt.isDateTime before ⟨[], []⟩)) = some e →
    ∃ e', recordById id (part.records (afterCalls rt.isDateTime (before ++ next) ⟨[], []⟩)) = some e' ∧
      property (js "discovered_at") e' = property (js "discovered_at") e ∧
      laterThan rt.dateMs (property (js "discovered_at") e') (property (js "last_seen") e') = false

/-- What an upsert leaves of a property: that of its record, or the one that is held -/
def stampOf (k : JsString) (record : Fields) (held : Option JsValue) : JsValue :=
  if k ∈ record.map Prod.fst then getOwn k record else property k (held.getD .undefined)

/-- The upsert brings the `discovered_at` that is held, or brings none, or its id is new; and what it
leaves is not after the `last_seen`. -/
structure StampsRight (rt : SweepRuntime) (doc : GraphDocument) (c : UpsertCall) (id : JsString) : Prop where
  held : ∀ held, recordById id (c.part.records doc) = some held →
    js "discovered_at" ∈ c.record.map Prod.fst →
    getOwn (js "discovered_at") c.record = property (js "discovered_at") held
  ordered : laterThan rt.dateMs (stampOf (js "discovered_at") c.record (recordById id (c.part.records doc)))
    (stampOf (js "last_seen") c.record (recordById id (c.part.records doc))) = false

/-- All upserts that the store accepts are such. -/
def AllStampsRight (rt : SweepRuntime) (calls : List UpsertCall) : Prop :=
  ∀ before c later id, calls = before ++ c :: later → getOwn (js "id") c.record = .str id →
    c.run rt.isDateTime (afterCalls rt.isDateTime before ⟨[], []⟩) ≠ none →
    StampsRight rt (afterCalls rt.isDateTime before ⟨[], []⟩) c id

theorem property_merged (k : JsString) (held : Option JsValue) (record : Fields) :
    property k (merged held record) = stampOf k record held := by
  rw [merged, property_obj, getOwn_spread, stampOf, getOwn_ownFields]

/-- What becomes of the records in one call -/
theorem afterCall_cases (c : UpsertCall) (doc : GraphDocument) :
    (c.run isDateTime doc = none ∧ (c.run isDateTime doc).getD doc = doc) ∨
    ∃ k, getOwn (js "id") c.record = .str k ∧ c.run isDateTime doc ≠ none ∧
      ∀ (part : GraphPart) id, recordById id (part.records ((c.run isDateTime doc).getD doc)) =
        if part = c.part ∧ id = k then some (merged (recordById k (c.part.records doc)) c.record)
        else recordById id (part.records doc) := by
  cases hcall : c.run isDateTime doc with
  | none => exact .inl ⟨rfl, rfl⟩
  | some doc' =>
    obtain ⟨k, hk⟩ := id_of_callGraph hcall
    obtain ⟨rfl, -⟩ := callGraph_eq_some.mp hcall
    refine .inr ⟨k, hk, Option.some_ne_none _, ?_⟩
    intro part id
    rw [Option.getD_some]
    by_cases hpart : part = c.part
    · subst hpart
      rw [GraphPart.records_put, recordById_upsert hk]
      by_cases hid : id = k
      · rw [if_pos hid, if_pos ⟨rfl, hid⟩]
      · rw [if_neg hid, if_neg fun h => hid h.2]
    · rw [GraphPart.records_put_ne hpart, if_neg fun h => hpart h.1]

theorem afterCalls_snoc (c : UpsertCall) (doc : GraphDocument) :
    afterCalls isDateTime (calls ++ [c]) doc = (c.run isDateTime (afterCalls isDateTime calls doc)).getD
      (afterCalls isDateTime calls doc) := afterCalls_append calls [c] doc

variable {rt : SweepRuntime}

/-- No record is discovered after it was last seen. -/
theorem ordered_of_stamps (h : AllStampsRight rt calls) (before later : List UpsertCall)
    (hcalls : calls = before ++ later)
    (he : recordById id (part.records (afterCalls rt.isDateTime before ⟨[], []⟩)) = some e) :
    laterThan rt.dateMs (property (js "discovered_at") e) (property (js "last_seen") e) = false := by
  induction before using List.reverseRecOn generalizing later with
  | nil => cases part <;> cases he
  | append_singleton before c ih =>
    have hsplit : calls = before ++ c :: later := by
      rw [hcalls, List.append_assoc, List.singleton_append]
    rw [afterCalls_snoc] at he
    rcases afterCall_cases c (afterCalls rt.isDateTime before ⟨[], []⟩) with
      ⟨-, hsame⟩ | ⟨k, hk, haccepted, hrecords⟩
    · rw [hsame] at he
      exact ih (c :: later) hsplit he
    · rw [hrecords] at he
      by_cases hself : part = c.part ∧ id = k
      · rw [if_pos hself] at he
        obtain rfl := Option.some.inj he
        rw [property_merged, property_merged]
        exact (h before c later k hsplit hk haccepted).ordered
      · rw [if_neg hself] at he
        exact ih (c :: later) hsplit he

/-- A record keeps the date of its discovery. -/
theorem discovered_of_stamps (h : AllStampsRight rt calls) (before next later : List UpsertCall)
    (hcalls : calls = before ++ next ++ later)
    (he : recordById id (part.records (afterCalls rt.isDateTime before ⟨[], []⟩)) = some e) :
    ∃ e', recordById id (part.records (afterCalls rt.isDateTime (before ++ next) ⟨[], []⟩)) = some e' ∧
      property (js "discovered_at") e' = property (js "discovered_at") e := by
  induction next using List.reverseRecOn generalizing later with
  | nil =>
    rw [List.append_nil]
    exact ⟨e, he, rfl⟩
  | append_singleton next c ih =>
    have hsplit : calls = (before ++ next) ++ c :: later := by
      rw [hcalls, ← List.append_assoc, List.append_assoc, List.singleton_append]
    obtain ⟨e', he', hkept⟩ := ih (c :: later) hsplit
    rw [← List.append_assoc, afterCalls_snoc]
    rcases afterCall_cases c (afterCalls rt.isDateTime (before ++ next) ⟨[], []⟩) with
      ⟨-, hsame⟩ | ⟨k, hk, haccepted, hrecords⟩
    · rw [hsame]
      exact ⟨e', he', hkept⟩
    · rw [hrecords]
      by_cases hself : part = c.part ∧ id = k
      · obtain ⟨rfl, rfl⟩ := hself
        rw [if_pos ⟨rfl, rfl⟩]
        refine ⟨_, rfl, ?_⟩
        rw [property_merged, he', stampOf]
        split_ifs with hmem
        · rw [(h (before ++ next) c later id hsplit hk haccepted).held e' he' hmem]
          exact hkept
        · exact hkept
      · rw [if_neg hself]
        exact ⟨e', he', hkept⟩

/-- Over any sequence of passes and upserts on an empty graph, entities and edges keep the time of their
first insertion as their `discovered_at`, never after their `last_seen`, just when each upsert brings the
one that is held. -/
theorem discovery_kept_iff (rt : SweepRuntime) (turns : List DiscoveryTurn) :
    turns.foldl (fun doc turn => turn.run rt.isDateTime doc) ⟨[], []⟩ =
        afterCalls rt.isDateTime (turns.flatMap DiscoveryTurn.calls) ⟨[], []⟩ ∧
      (KeepsDiscovery rt (turns.flatMap DiscoveryTurn.calls) ↔
        AllStampsRight rt (turns.flatMap DiscoveryTurn.calls)) := by
  constructor
  · have key (doc : GraphDocument) : turns.foldl (fun doc turn => turn.run rt.isDateTime doc) doc =
        afterCalls rt.isDateTime (turns.flatMap DiscoveryTurn.calls) doc := by
      induction turns generalizing doc with
      | nil => rfl
      | cons turn turns ih =>
        rw [List.foldl_cons, List.flatMap_cons, afterCalls_append, ← turn_calls]
        exact ih _
    exact key _
  · generalize turns.flatMap DiscoveryTurn.calls = calls
    constructor
    · intro h before c later k hcalls hk haccepted
      have hafter : recordById k (c.part.records (afterCalls rt.isDateTime (before ++ [c]) ⟨[], []⟩)) =
          some (merged (recordById k (c.part.records (afterCalls rt.isDateTime before ⟨[], []⟩)))
            c.record) := by
        rw [afterCalls_snoc]
        rcases afterCall_cases c (afterCalls rt.isDateTime before ⟨[], []⟩) with
          ⟨hnone, -⟩ | ⟨k', hk', -, hrecords⟩
        · exact absurd hnone haccepted
        · obtain rfl : k = k' := JsValue.str.inj (hk.symm.trans hk')
          rw [hrecords, if_pos ⟨rfl, rfl⟩]
      have hsplit : calls = before ++ [c] ++ later := by
        rw [hcalls, List.append_assoc, List.singleton_append]
      constructor
      · intro held hheld hmem
        obtain ⟨e', he', hkept, -⟩ := h before [c] later hsplit c.part k held hheld
        obtain rfl := Option.some.inj (hafter.symm.trans he')
        rw [property_merged, stampOf, if_pos hmem] at hkept
        exact hkept
      · have hsplit' : calls = (before ++ [c]) ++ [] ++ later := by
          rw [List.append_nil]
          exact hsplit
        obtain ⟨e', he', -, hordered⟩ := h (before ++ [c]) [] later hsplit' c.part k _ hafter
        rw [List.append_nil] at he'
        obtain rfl := Option.some.inj (hafter.symm.trans he')
        rw [property_merged, property_merged] at hordered
        exact hordered
    · intro h before next later hcalls part id e he
      obtain ⟨e', he', hkept⟩ := discovered_of_stamps h before next later hcalls he
      exact ⟨e', he', hkept, ordered_of_stamps h (before ++ next) later hcalls he'⟩

/-- A proxy that is found again an hour later has been discovered an hour later. -/
theorem rediscovered : ¬ ∀ (rt : SweepRuntime) (turns : List DiscoveryTurn),
    KeepsDiscovery rt (turns.flatMap DiscoveryTurn.calls) := by
  intro h
  have hlaw := h (labSweeps (.ofNat 1800000)) [.pass none [⟨js "nas", js "docker-swarm",
    .enumerated [proxyAt nasSeen] []⟩], .pass none [proxyVisit]]
  obtain ⟨e', he', hkept, -⟩ := hlaw [⟨.entities, proxyAt nasSeen⟩] [⟨.entities, proxyAt laterSeen⟩] [] rfl
    .entities (js "service:nas:proxy") (merged none (proxyAt nasSeen)) (by with_unfolding_all rfl)
  have hfound : recordById (js "service:nas:proxy") (GraphPart.entities.records
      (afterCalls (labSweeps (.ofNat 1800000)).isDateTime
        ([⟨.entities, proxyAt nasSeen⟩] ++ [⟨.entities, proxyAt laterSeen⟩]) ⟨[], []⟩)) =
      some (merged (some (merged none (proxyAt nasSeen))) (proxyAt laterSeen)) := by
    with_unfolding_all rfl
  obtain rfl := Option.some.inj (hfound.symm.trans he')
  have hlater : property (js "discovered_at")
      (merged (some (merged none (proxyAt nasSeen))) (proxyAt laterSeen)) = .str laterSeen := by
    with_unfolding_all rfl
  have hfirst : property (js "discovered_at") (merged none (proxyAt nasSeen)) = .str nasSeen := by
    with_unfolding_all rfl
  rw [hlater, hfirst] at hkept
  exact absurd (JsValue.str.inj hkept) (by decide)

end Homelab
