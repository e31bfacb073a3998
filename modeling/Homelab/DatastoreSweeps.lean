import Homelab.DatastoreProbe

/-! Probes of the datastores and sweeps on one graph, in any order and at any times: when a sweep takes
a datastore that is running for one that is gone. -/
namespace Homelab
open Js Locked

/-! ### Runs -/

/-- The graph, and when each entity has last been probed or reported -/
structure ProbedGraph where
  doc : GraphDocument
  cache : DedupCache
  seenAt : JsString → JsValue

inductive ProbeTurn
  | probe (run : DatastoreRun)
  | sweep (input : SweepInput)

/-- The entity of this id is what the call upserts. -/
def UpsertCall.writes (id : JsString) (c : UpsertCall) : Bool :=
  c.part = .entities ∧ idOf (.obj c.record) = some id

/-- As it was before, unless one of the calls writes the entity -/
def seenAfter (now : JsString) (made : List UpsertCall) (seenAt : JsString → JsValue)
    (id : JsString) : JsValue :=
  if made.any (UpsertCall.writes id) then .str now else seenAt id

/-- As it was before, unless a report of the sweep brings the entity -/
def SweepInput.seenAfter (rt : SweepRuntime) (input : SweepInput) (seenAt : JsString → JsValue)
    (id : JsString) : JsValue :=
  ((lastReport rt.isDateTime .entities id (reported input.visited .entities)).map
    (getOwn (js "last_seen"))).getD (seenAt id)

def ProbedGraph.sweep (rt : SweepRuntime) (s : ProbedGraph) (input : SweepInput) : ProbedGraph :=
  match rt.sweep input s.doc s.cache with
  | none => s
  | some (_, post, cache) => ⟨post, cache, input.seenAfter rt s.seenAt⟩

def probesAndSweeps (rt : SweepRuntime) (toLowerCase : JsString → JsString) :
    Automaton ProbedGraph ProbeTurn where
  allowed _
    | .probe _ => True
    | .sweep input => ∃ now, ReportsAt input now
  next s
    | .probe run =>
      { s with
        doc := (run.probe toLowerCase rt.isDateTime s.doc).2
        seenAt := seenAfter run.now (madeCalls rt.isDateTime (run.calls toLowerCase s.doc) s.doc) s.seenAt }
    | .sweep input => s.sweep rt input

/-- A run begins with any graph. -/
def ProbedGraph.start (doc : GraphDocument) (cache : DedupCache) : ProbedGraph where
  doc
  cache
  seenAt id := property (js "last_seen") ((recordById id doc.entities).getD .undefined)

/-! ### Datastores that are running -/

/-- The datastore that has been found in this entity -/
def DatastoreOf (source : JsString) (e : JsValue) : Prop :=
  property (js "kind") e = .str (js "datastore") ∧ attributeOf (js "source_entity_id") e = .str source

/-- A database that is a member of the datastore -/
def DatabaseOf (doc : GraphDocument) (datastore e : JsValue) : Prop :=
  property (js "kind") e = .str (js "database") ∧ ∃ edge ∈ doc.edges,
    property (js "type") edge = .str (js "member-of") ∧ textOf (js "from") edge = textOf (js "id") e ∧
      textOf (js "to") edge = textOf (js "id") datastore

/-- The entity is a datastore that the sweep has found the source of, or a database of one. -/
def Running (rt : SweepRuntime) (input : SweepInput) (doc : GraphDocument) (e : JsValue) : Prop :=
  ∃ datastore ∈ doc.entities, ∃ source, DatastoreOf source datastore ∧ rt.Reported input .entities source ∧
    (e = datastore ∨ DatabaseOf doc datastore e)

/-- An observation says that the entity is gone. -/
def SaysGone (input : SweepInput) (result : SweepResult) (id : JsString) : Prop :=
  ∃ event ∈ result.driftEvents, ∃ obs ∈ result.observations, buildObservation event input.sweepAt = some obs ∧
    obs.pattern = .entityGone ∧ idOf event.entity = some id

/-- The sweep marks no entity of a datastore that is running, and does not say that one is gone. -/
def SparesRunning (rt : SweepRuntime) (input : SweepInput) (s : ProbedGraph) : Prop :=
  ∀ result post cache', rt.sweep input s.doc s.cache = some (result, post, cache') →
    ∀ id e, recordById id s.doc.entities = some e → Running rt input s.doc e →
      (∀ e', recordById id (rt.enumerate input s.doc).1.entities = some e' →
        SameStatus .entities id e' post) ∧
        ¬ SaysGone input result id

/-- A record with this status, last seen then -/
def seenRecord (seen status : JsValue) : JsValue := .obj [(js "last_seen", seen), (js "status", status)]

/-- Since the last probe or report of such an entity the time of its status has not run out, unless its
platform has not been enumerated. -/
def ProbedInTime (rt : SweepRuntime) (input : SweepInput) (s : ProbedGraph) : Prop :=
  ∀ id e, recordById id s.doc.entities = some e → Running rt input s.doc e →
    ∀ x, rt.held input s.doc .entities id = some x → input.covers x →
      ¬ rt.Due input (seenRecord (input.seenAfter rt s.seenAt id) (property (js "status") x))

variable {rt : SweepRuntime} {toLowerCase : JsString → JsString} {isDateTime : JsString → Bool}
  {run : DatastoreRun} {input : SweepInput} {doc doc' prior post : GraphDocument} {s t : ProbedGraph}
  {id now : JsString} {e x : JsValue} {c : UpsertCall} {calls : List UpsertCall}

/-! ### When an entity was last seen -/

/-- The `last_seen` of each entity is when it has last been probed or reported. -/
structure SeenRight (rt : SweepRuntime) (s : ProbedGraph) : Prop where
  valid : ValidGraph rt.isDateTime s.doc
  unique : UniqueGraph s.doc
  seen : ∀ id e, recordById id s.doc.entities = some e → property (js "last_seen") e = s.seenAt id

theorem seenRight_start {cache : DedupCache} (hvalid : ValidGraph rt.isDateTime doc)
    (hunique : UniqueGraph doc) :
    SeenRight rt (.start doc cache) := by
  refine ⟨hvalid, hunique, ?_⟩
  intro id e he
  change property (js "last_seen") e =
    property (js "last_seen") ((recordById id doc.entities).getD .undefined)
  rw [show recordById id doc.entities = some e from he, Option.getD_some]

/-- All entities of the run are seen at its time. -/
theorem seen_of_calls (hc : c ∈ run.calls toLowerCase doc) : c.part = .entities →
    js "last_seen" ∈ c.record.map Prod.fst ∧ getOwn (js "last_seen") c.record = .str run.now := by
  obtain ⟨source, -, hc⟩ := List.mem_flatMap.mp hc
  rcases List.mem_cons.mp hc with rfl | hc
  · intro _
    exact ⟨by simp [buildDatastoreEntity], rfl⟩
  · obtain ⟨child, -, hc⟩ := List.mem_flatMap.mp hc
    rcases List.mem_cons.mp hc with rfl | hc
    · intro _
      exact ⟨by simp [buildChildEntity], rfl⟩
    · rw [List.mem_singleton.mp hc]
      intro hpart
      cases hpart

theorem seenAfter_cons (c : UpsertCall) (made : List UpsertCall) (seenAt : JsString → JsValue) :
    seenAfter now made (seenAfter now [c] seenAt) = seenAfter now (c :: made) seenAt := by
  funext id
  rw [seenAfter, seenAfter, seenAfter, List.any_cons, List.any_cons, List.any_nil, Bool.or_false]
  cases c.writes id with
  | true => rw [Bool.true_or, if_pos rfl, ite_self]
  | false => rw [Bool.false_or, if_neg Bool.false_ne_true]

theorem seenRight_call (hseen : SeenRight rt s) (hcall : c.run rt.isDateTime s.doc = some doc')
    (hc : c.part = .entities → js "last_seen" ∈ c.record.map Prod.fst ∧
      getOwn (js "last_seen") c.record = .str now) :
    SeenRight rt { s with doc := doc', seenAt := seenAfter now [c] s.seenAt } := by
  refine ⟨(callGraph_eq_some.mp hcall).2, (upserts_call hcall).unique hseen.unique, ?_⟩
  intro id e he
  change recordById id doc'.entities = some e at he
  change property _ e = seenAfter now [c] s.seenAt id
  rw [seenAfter, List.any_cons, List.any_nil, Bool.or_false]
  rcases @afterCall_cases rt.isDateTime c s.doc with ⟨hnone, -⟩ | ⟨k, hk, -, hrecords⟩
  · rw [hcall] at hnone
    cases hnone
  · have hnew := hrecords .entities id
    rw [hcall, Option.getD_some] at hnew
    change recordById id doc'.entities = _ at hnew
    rw [he] at hnew
    by_cases hself : .entities = c.part ∧ id = k
    · obtain ⟨hpart, rfl⟩ := hself
      rw [if_pos ⟨hpart, rfl⟩] at hnew
      have hwrites : c.writes id = true := decide_eq_true ⟨hpart.symm, idOf_eq_some.mpr hk⟩
      obtain ⟨hmem, hvalue⟩ := hc hpart.symm
      rw [if_pos hwrites, Option.some.inj hnew, property_merged, stampOf, if_pos hmem, hvalue]
    · rw [if_neg hself] at hnew
      have hwrites : ¬ c.writes id = true := by
        intro h
        obtain ⟨hpart, hid⟩ := of_decide_eq_true h
        rw [idOf_eq_some, property_obj, hk] at hid
        exact hself ⟨hpart.symm, (JsValue.str.inj hid).symm⟩
      rw [if_neg hwrites]
      exact hseen.seen id e hnew.symm

/-- Call after call, up to one that is refused. -/
theorem seenRight_calls (hseen : SeenRight rt s) (hcalls : ∀ c ∈ calls, c.part = .entities →
      js "last_seen" ∈ c.record.map Prod.fst ∧ getOwn (js "last_seen") c.record = .str now) :
    SeenRight rt { s with
      doc := afterCalls rt.isDateTime (madeCalls rt.isDateTime calls s.doc) s.doc
      seenAt := seenAfter now (madeCalls rt.isDateTime calls s.doc) s.seenAt } := by
  induction calls generalizing s with
  | nil => exact hseen
  | cons c calls ih =>
    obtain ⟨hc, hrest⟩ := List.forall_mem_cons.mp hcalls
    rw [madeCalls]
    cases hcall : c.run rt.isDateTime s.doc with
    | none => exact hseen
    | some doc' =>
      have hnext := ih (seenRight_call hseen hcall hc) hrest
      dsimp only at hnext ⊢
      rw [seenAfter_cons] at hnext
      rw [afterCalls, List.foldl_cons, hcall, Option.getD_some]
      exact hnext

/-- The record of an entity once the reports are in is seen when it has been reported, or as before. -/
theorem seen_of_held (hseen : SeenRight rt s) (hx : rt.held input s.doc .entities id = some x) :
    property (js "last_seen") x = input.seenAfter rt s.seenAt id := by
  rw [SweepInput.seenAfter]
  rw [SweepRuntime.held, asReported_eq] at hx
  cases hlast : lastReport rt.isDateTime .entities id (reported input.visited .entities) with
  | none =>
    rw [hlast] at hx
    exact hseen.seen id x hx
  | some record =>
    rw [hlast] at hx
    rw [← Option.some.inj hx]
    exact property_obj ..

/-- What the sweep leaves of an entity is seen when it has been reported, or as it was before. -/
theorem seenRight_sweep (hseen : SeenRight rt s) (hreports : ReportsAt input now) {result : SweepResult}
    {cache : DedupCache} (hsweep : rt.sweep input s.doc s.cache = some (result, post, cache)) :
    SeenRight rt ⟨post, cache, input.seenAfter rt s.seenAt⟩ := by
  obtain ⟨hpost, -, -⟩ := sweep_result hseen.valid hseen.unique hsweep
  have hvalid' := (rt.enumerates input s.doc).valid hseen.valid
  have hunique' := (rt.enumerates input s.doc).unique hseen.unique
  subst hpost
  refine ⟨reconciled_valid hvalid', reconciled_unique hvalid' hunique', ?_⟩
  intro id e he
  have hjudged := recordById_reconciled (rt.reconciliation input (rt.enumerate input s.doc).2)
    hvalid' .entities id
  obtain ⟨y, hy, rfl⟩ := Option.map_eq_some_iff.mp (hjudged.symm.trans he)
  rw [property_judged (hvalid'.wellFormed (recordById_mem hy).1) (by decide)]
  obtain ⟨x, hx, hreads⟩ := (SweepRuntime.agree_enumerate hreports hseen.valid .entities id).to_held hy
  rw [hreads _ (by simp [GraphPart.reads])]
  exact seen_of_held hseen hx

theorem seenRight_reaches (hstart : SeenRight rt s)
    (hreaches : (probesAndSweeps rt toLowerCase).Reaches Automaton.anyEvent s t) : SeenRight rt t := by
  refine hreaches.invariant hstart ?_
  intro u turn hu hallowed _
  cases turn with
  | probe run => exact seenRight_calls hu fun c hc => seen_of_calls hc
  | sweep input =>
    obtain ⟨now, hreports⟩ := hallowed
    obtain ⟨result, cache, hsweep, -⟩ := sweep_eq input hu.valid hu.unique u.cache
    change SeenRight rt (u.sweep rt input)
    rw [ProbedGraph.sweep, hsweep]
    exact seenRight_sweep hu hreports hsweep

/-! ### One sweep -/

/-- An entity that keeps its status in the reconciliation is not said to be gone. -/
theorem not_saysGone (hreports : ReportsAt input now) (hvalid : ValidGraph rt.isDateTime prior)
    (hunique : UniqueGraph prior) {cache cache' : DedupCache} {result : SweepResult}
    (hsweep : rt.sweep input prior cache = some (result, post, cache'))
    (he : recordById id prior.entities = some e)
    (hkept : ∀ e', recordById id (rt.enumerate input prior).1.entities = some e' →
      SameStatus .entities id e' post) : ¬ SaysGone input result id := by
  rintro ⟨event, hevent, obs, -, hbuilt, hpattern, hid⟩
  have hevent' : isGoneEvent id event = true := by
    cases event with
    | entityGone entity => exact hasId_iff.mpr hid
    | entityAdded entity => cases hbuilt
    | replicaMismatch entity running desired =>
      cases hbuilt
      cases hpattern
    | imageChanged entity previous current =>
      cases hbuilt
      cases hpattern
  obtain ⟨hpost, hevents, -⟩ := sweep_result hvalid hunique hsweep
  have hvalid' := (rt.enumerates input prior).valid hvalid
  have hunique' : UniqueGraph post := by
    rw [hpost]
    exact reconciled_unique hvalid' ((rt.enumerates input prior).unique hunique)
  have hcount : 0 < goneEvents id result.driftEvents := List.countP_pos_iff.mpr ⟨event, hevent, hevent'⟩
  rw [hevents, goneEvents_computeDiff _ _ hunique'.1] at hcount
  have hany : (recordById id post.entities).any
      (reportedGone prior.entities (succeededPlatformIds (rt.enumerate input prior).2)) = true := by
    by_contra hnot
    rw [if_neg hnot] at hcount
    exact absurd hcount (lt_irrefl 0)
  obtain ⟨y, hy, hgone⟩ := (Option.any_eq_true _ _).mp hany
  rw [reportedGone, idOf_eq_some.mp (recordById_mem hy).2, priorById_eq hunique.1, he, Option.any_some,
    Bool.and_eq_true, Bool.and_eq_true, Bool.not_eq_true'] at hgone
  obtain ⟨⟨-, hgone⟩, hbefore⟩ := hgone
  -- as the entity has kept its status, it was gone before the reconciliation, so before the sweep
  have hrecord := recordById_reconciled (rt.reconciliation input (rt.enumerate input prior).2)
    hvalid' .entities id
  rw [← hpost] at hrecord
  obtain ⟨e', he', -⟩ := Option.map_eq_some_iff.mp (hrecord.symm.trans hy)
  obtain ⟨z, hz, hsame⟩ := hkept e' he'
  obtain rfl : y = z := Option.some.inj (hy.symm.trans hz)
  obtain ⟨x, hx, hreads⟩ := (SweepRuntime.agree_enumerate hreports hvalid .entities id).to_held he'
  have hstatus : property (js "status") x = property (js "status") y := by
    rw [hsame, hreads _ (by simp [GraphPart.reads])]
  rw [hasStatus, ← hstatus] at hgone
  rcases @held_cases _ _ _ .entities _ _ he with ⟨hold, -⟩ | ⟨p, record, hreport, -, hnew⟩
  · obtain rfl : x = e := Option.some.inj (hx.symm.trans hold)
    rw [hasStatus] at hbefore
    rw [hbefore] at hgone
    cases hgone
  · obtain rfl : x = .obj record := Option.some.inj (hx.symm.trans hnew)
    rw [property_obj, (hreports .entities p record hreport).status] at hgone
    cases hgone

/-- A sweep spares the datastores that are running just when they have been probed in time. -/
theorem sparesRunning_iff (hseen : SeenRight rt s) (hreports : ReportsAt input now) :
    SparesRunning rt input s ↔ ProbedInTime rt input s := by
  have hvalid' := (rt.enumerates input s.doc).valid hseen.valid
  -- what the verdict goes by is what the run has seen
  have hjudge {id : JsString} {e : JsValue} (he : recordById id s.doc.entities = some e) :
      (∀ e', recordById id (rt.enumerate input s.doc).1.entities = some e' → SameStatus .entities id e'
          (reconciled (rt.reconciliation input (rt.enumerate input s.doc).2) (rt.enumerate input s.doc).1)) ↔
        ∀ x, rt.held input s.doc .entities id = some x → input.covers x →
          ¬ rt.Due input (seenRecord (input.seenAfter rt s.seenAt id) (property (js "status") x)) := by
    obtain ⟨x, e', hx, he', hreads, -⟩ := @held_record _ _ _ .entities _ _ _ hreports hseen.valid he
    have hseenAt := seen_of_held hseen hx
    have hdue : rt.Due input (seenRecord (input.seenAfter rt s.seenAt id) (property (js "status") x)) ↔
        rt.Due input x :=
      @due_iff rt input x [] (seenRecord _ _) hseenAt.symm rfl
    have hcovers : input.covers e' ↔ input.covers x := by
      rw [SweepInput.covers, SweepInput.covers, hreads _ (List.mem_cons_self ..)]
    calc (∀ e', recordById id (rt.enumerate input s.doc).1.entities = some e' → SameStatus .entities id e'
          (reconciled (rt.reconciliation input (rt.enumerate input s.doc).2) (rt.enumerate input s.doc).1))
        ↔ SameStatus .entities id e' (reconciled (rt.reconciliation input (rt.enumerate input s.doc).2)
            (rt.enumerate input s.doc).1) :=
          ⟨fun h => h e' he', fun h y hy => Option.some.inj (he'.symm.trans hy) ▸ h⟩
      _ ↔ (rt.reconciliation input (rt.enumerate input s.doc).2).entityVerdict e' = none :=
          @sameStatus_reconciled _ _ _ _ _ .entities hseen.valid he'
      _ ↔ (input.covers e' → ¬ rt.Due input x) :=
          entityVerdict_due (hreads _ (by simp [GraphPart.reads])) (hreads _ (by simp [GraphPart.reads]))
      _ ↔ (input.covers x → ¬ rt.Due input (seenRecord (input.seenAfter rt s.seenAt id)
            (property (js "status") x))) := by rw [hcovers, hdue]
      _ ↔ _ := ⟨fun h y hy => Option.some.inj (hx.symm.trans hy) ▸ h, fun h => h x hx⟩
  constructor
  · intro hspares
    obtain ⟨result, cache', hsweep, -⟩ := sweep_eq input hseen.valid hseen.unique s.cache
    intro id e he hrunning
    exact (hjudge he).mp (hspares result _ cache' hsweep id e he hrunning).1
  · intro htime result post cache' hsweep id e he hrunning
    have hkept := (hjudge he).mpr (htime id e he hrunning)
    rw [← (sweep_result hseen.valid hseen.unique hsweep).1] at hkept
    exact ⟨hkept, not_saysGone hreports hseen.valid hseen.unique hsweep he hkept⟩

/-! ### Runs of probes and sweeps -/

/-- In any run of probes and sweeps, a sweep leaves the datastores whose sources it has found alone just
when each of them, and each of their databases, has been probed within the time of its status. -/
theorem running_spared_iff (rt : SweepRuntime) (toLowerCase : JsString → JsString) (doc : GraphDocument)
    (cache : DedupCache) (hvalid : ValidGraph rt.isDateTime doc) (hunique : UniqueGraph doc) (s : ProbedGraph)
    (hreaches : (probesAndSweeps rt toLowerCase).Reaches Automaton.anyEvent (.start doc cache) s)
    (input : SweepInput) (now : JsString) (hreports : ReportsAt input now) :
    (∀ id e, recordById id s.doc.entities = some e → property (js "last_seen") e = s.seenAt id) ∧
      (SparesRunning rt input s ↔ ProbedInTime rt input s) := by
  have hseen := seenRight_reaches (seenRight_start hvalid hunique) hreaches
  exact ⟨hseen.seen, sparesRunning_iff hseen hreports⟩

/-! ### A cache that is running -/

def cacheContainer (seen : JsString) : Fields :=
  foundEntity ⟨js "nas", none, seen⟩ (js "docker-swarm") (js "container:nas:cache") (js "container")
    (.str (js "cache")) [(js "image", .str (js "redis"))]

/-- The container of the cache is found. -/
def cacheSweep (seen : JsString) : SweepInput :=
  ⟨seen, none, [⟨js "nas", js "docker-swarm", .enumerated [cacheContainer seen] []⟩], fun _ => true⟩

def cacheAnswer : DatastoreIntrospection := ⟨js "redis", js "7.2", js "ok", [], none, none⟩

def cacheRun : DatastoreRun := ⟨nasSeen, fun _ => some cacheAnswer⟩

def defaultSweeps : SweepRuntime := labSweeps (.ofNat 1800000)

/-- A sweep has found the container, and a probe the cache in it. -/
def cacheProbed : ProbedGraph :=
  (probesAndSweeps defaultSweeps fun s => s).after (.start ⟨[], []⟩ ⟨.ofNat 0, []⟩)
    [.sweep (cacheSweep nasSeen), .probe cacheRun]

theorem cacheSweep_reports (seen : JsString) : ReportsAt (cacheSweep seen) seen := by
  rintro part p record ⟨q, hq, -, rfl, hrecord⟩
  obtain rfl := List.mem_singleton.mp hq
  cases part with
  | entities =>
    obtain rfl := List.mem_singleton.mp hrecord
    refine ⟨?_, rfl, rfl, fun _ => rfl⟩
    simp [GraphPart.required, cacheContainer, foundEntity]
  | edges => cases hrecord

theorem cacheProbed_reached : (probesAndSweeps defaultSweeps fun s => s).Reaches Automaton.anyEvent
    (.start ⟨[], []⟩ ⟨.ofNat 0, []⟩) cacheProbed := by
  apply Automaton.Permits.reaches
  exact ⟨⟨nasSeen, cacheSweep_reports nasSeen⟩, trivial, trivial, trivial, trivial⟩

theorem cacheProbed_entities : cacheProbed.doc.entities =
    [.obj (cacheContainer nasSeen),
      .obj (buildDatastoreEntity nasSeen (.obj (cacheContainer nasSeen)) cacheAnswer)] := by
  with_unfolding_all rfl

theorem emptyGraph_unique : UniqueGraph ⟨[], []⟩ := ⟨List.nodup_nil, List.nodup_nil⟩

theorem running_spared_iff_cache :
    (∀ id e, recordById id cacheProbed.doc.entities = some e →
        property (js "last_seen") e = cacheProbed.seenAt id) ∧
      (SparesRunning defaultSweeps (cacheSweep laterSeen) cacheProbed ↔
        ProbedInTime defaultSweeps (cacheSweep laterSeen) cacheProbed) :=
  running_spared_iff defaultSweeps (fun s => s) ⟨[], []⟩ ⟨.ofNat 0, []⟩ (emptyGraph_valid _)
    emptyGraph_unique cacheProbed
    cacheProbed_reached (cacheSweep laterSeen) laterSeen (cacheSweep_reports laterSeen)

/-- An hour later a sweep finds the container again, and the cache in it is taken to be gone. -/
theorem running_cache_gone : ¬ ∀ (rt : SweepRuntime) (toLowerCase : JsString → JsString) (doc : GraphDocument)
    (cache : DedupCache) (s : ProbedGraph) (input : SweepInput) (now : JsString),
    ValidGraph rt.isDateTime doc →
    UniqueGraph doc → (probesAndSweeps rt toLowerCase).Reaches Automaton.anyEvent (.start doc cache) s →
    ReportsAt input now → SparesRunning rt input s := by
  intro h
  have hreports := cacheSweep_reports laterSeen
  have hseen := seenRight_reaches
    (@seenRight_start defaultSweeps _ ⟨.ofNat 0, []⟩ (emptyGraph_valid _) emptyGraph_unique)
    cacheProbed_reached
  have hspares := h _ _ _ _ _ _ _ (emptyGraph_valid _) emptyGraph_unique cacheProbed_reached hreports
  have htime := (sparesRunning_iff hseen hreports).mp hspares
  have hmem : JsValue.obj (buildDatastoreEntity nasSeen (.obj (cacheContainer nasSeen)) cacheAnswer) ∈
      cacheProbed.doc.entities := by
    rw [cacheProbed_entities]
    exact List.mem_cons_of_mem _ (List.mem_singleton_self _)
  have hheld : recordById (js "datastore:nas:cache") cacheProbed.doc.entities =
      some (.obj (buildDatastoreEntity nasSeen (.obj (cacheContainer nasSeen)) cacheAnswer)) :=
    recordById_of_mem hseen.unique.1 hmem (by with_unfolding_all rfl)
  have hafter : defaultSweeps.held (cacheSweep laterSeen) cacheProbed.doc .entities
    (js "datastore:nas:cache") =
      some (.obj (buildDatastoreEntity nasSeen (.obj (cacheContainer nasSeen)) cacheAnswer)) := by
    rw [← hheld]
    with_unfolding_all rfl
  have hreport : (cacheSweep laterSeen).Reports .entities (js "nas") (cacheContainer laterSeen) :=
    ⟨_, List.mem_singleton_self _, rfl, rfl, List.mem_singleton_self _⟩
  apply htime _ _ hheld _ _ hafter
  · exact ⟨js "nas", hreport.succeeded, rfl⟩
  · rw [← seen_of_held hseen hafter]
    refine ⟨by with_unfolding_all rfl, ?_⟩
    have hgone : (defaultSweeps.reconciliation (cacheSweep laterSeen) []).degraded
        (seenRecord (.str nasSeen) (.str (js "active"))) = some (js "gone") := by
      with_unfolding_all rfl
    exact fun hnone => Option.some_ne_none _ (hgone.symm.trans hnone)
  · exact ⟨_, hmem, js "container:nas:cache", ⟨rfl, rfl⟩,
      ⟨js "nas", cacheContainer laterSeen, hreport, by with_unfolding_all rfl, rfl⟩, .inl rfl⟩

end Homelab
