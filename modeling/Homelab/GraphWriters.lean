import Homelab.ClassifySightings
import Homelab.HealthScore

/-! The graph with enumerations and passes on it at once: the scorer, the classifier and the
reconciliation of sweeps, each of which reads once and then writes its records back. -/
namespace Homelab
open Js Locked

/-! ### Passes -/

/-- What a pass goes by -/
inductive PassInput
  | score (rt : ScoreRuntime) (scorer : HealthScorer) (now : ℤ) (stored : Option (List Observation))
  | classify (ct : ClassifierRuntime) (now : JsString)
  | reconcile (R : Reconciliation)

/-- What the pass writes back, once it has read the graph -/
def PassInput.writes (snapshot : GraphDocument) : PassInput → List WriteBack
  | .score rt scorer now stored => scoreWrites rt scorer now stored snapshot
  | .classify ct now => classifyWrites ct.text ct.catalog now snapshot
  | .reconcile R => reconcileWrites R snapshot

/-- A write that is refused ends the pass, but for the scorer, which passes it over. -/
def PassInput.refused : PassInput → List WriteBack → List WriteBack
  | .score .., rest => rest
  | _, _ => []

/-- Properties of a record, and attributes of it -/
structure OwnedFields where
  keys : List JsString
  attributes : List JsString

/-- The fields that a pass is there to write -/
def PassInput.owned : PassInput → OwnedFields
  | .score .. => ⟨[], [js "health_score", js "health_grade"]⟩
  | .classify .. => ⟨[], [js "role", js "role_confidence"]⟩
  | .reconcile _ => ⟨[js "status"], []⟩

/-- The fields of all passes -/
def passFields : OwnedFields :=
  ⟨[js "status"], [js "health_score", js "health_grade", js "role", js "role_confidence"]⟩

/-- A pass that is under way -/
structure Pass where
  input : PassInput
  pending : List WriteBack

structure GraphWriting where
  doc : GraphDocument
  passes : List Pass

inductive WriterEvent
  | upsert (part : GraphPart) (record : Fields)
  | start (input : PassInput)
  | write (i : ℕ)

/-- The next write of a pass -/
def GraphWriting.write (isDateTime : JsString → Bool) (s : GraphWriting) (i : ℕ) : GraphWriting :=
  match s.passes[i]? with
  | some ⟨input, w :: ws⟩ =>
    match w.call isDateTime s.doc with
    | some doc => ⟨doc, s.passes.set i ⟨input, ws⟩⟩
    | none => ⟨s.doc, s.passes.set i ⟨input, input.refused ws⟩⟩
  | _ => s

/-- Upserts of others and the writes of any number of passes, in any order -/
def graphWriters (isDateTime : JsString → Bool) : Automaton GraphWriting WriterEvent where
  allowed _ _ := True
  next s
    | .upsert part record => { s with doc := (callGraph isDateTime (part.op record) s.doc).getD s.doc }
    | .start input => { s with passes := s.passes ++ [⟨input, input.writes s.doc⟩] }
    | .write i => s.write isDateTime i

/-! ### What a write changes -/

/-- No other fields are changed than those. -/
structure ChangesOnly (owned : OwnedFields) (e e' : JsValue) : Prop where
  keys : ∀ k, k ≠ js "attributes" → k ∉ owned.keys → property k e' = property k e
  attributes : ∀ a, a ∉ owned.attributes → attributeOf a e' = attributeOf a e

/-- But for the fields of the pass, the record that it has read and what it stamps on it are what the
graph holds when it writes. -/
structure StillCurrent (owned : OwnedFields) (w : WriteBack) (held : JsValue) : Prop where
  read : ∀ k ∈ (ownFields w.read).map Prod.fst, k ∉ w.fields.map Prod.fst → k ≠ js "attributes" →
    property k w.read = property k held
  stamped : ∀ k ∈ w.fields.map Prod.fst, k ∉ owned.keys → k ≠ js "attributes" →
    getOwn k w.fields = property k held
  attributes : js "attributes" ∈ (ownFields w.read).map Prod.fst → ∀ a, a ∉ owned.attributes →
    attributeOf a w.read = attributeOf a held

/-- What the writes of a pass have in common: they bring its fields, and attributes are those that have
been read, with its own over them. -/
structure WritesOwned (owned : OwnedFields) (w : WriteBack) : Prop where
  id : js "id" ∉ w.fields.map Prod.fst
  keys : ∀ k ∈ owned.keys, k ∈ w.fields.map Prod.fst
  annotated : js "attributes" ∈ w.fields.map Prod.fst → js "attributes" ∈ (ownFields w.read).map Prod.fst ∧
    ∃ annotation, getOwn (js "attributes") w.fields = withAnnotation w.read annotation ∧
      annotation.map Prod.fst = owned.attributes
  unannotated : js "attributes" ∉ w.fields.map Prod.fst → owned.attributes = []

variable {isDateTime : JsString → Bool} {owned : OwnedFields} {w : WriteBack} {held : JsValue}
  {doc doc' : GraphDocument} {part : GraphPart} {id : JsString}

theorem attributeOf_writeBack (hheld : ∃ fs, held = .obj fs) (hw : WritesOwned owned w) {a : JsString}
    (ha : a ∉ owned.attributes) : attributeOf a (merged (some held) w.record) =
      if js "attributes" ∈ (ownFields w.read).map Prod.fst then attributeOf a w.read
      else attributeOf a held := by
  rw [attributeOf, property_writeBack hheld]
  by_cases hfields : js "attributes" ∈ w.fields.map Prod.fst
  · obtain ⟨hread, annotation, hvalue, hkeys⟩ := hw.annotated hfields
    rw [if_pos hfields, if_pos hread, hvalue, withAnnotation, property_obj, getOwn_rewritten, if_neg]
    · rfl
    · rw [hkeys]
      exact ha
  · rw [if_neg hfields]
    split_ifs <;> rfl

/-- A write changes its own fields only just when all else is still as the pass has read it. -/
theorem changesOnly_iff (hheld : ∃ fs, held = .obj fs) (hw : WritesOwned owned w) :
    ChangesOnly owned held (merged (some held) w.record) ↔ StillCurrent owned w held := by
  constructor
  · intro h
    constructor
    · intro k hk hfields hattributes
      have hkept := h.keys k hattributes fun hown => hfields (hw.keys k hown)
      rw [property_writeBack hheld, if_neg hfields, if_pos hk] at hkept
      exact hkept
    · intro k hk hown hattributes
      have hkept := h.keys k hattributes hown
      rw [property_writeBack hheld, if_pos hk] at hkept
      exact hkept
    · intro hread a ha
      have hkept := h.attributes a ha
      rw [attributeOf_writeBack hheld hw ha, if_pos hread] at hkept
      exact hkept
  · intro h
    constructor
    · intro k hattributes hown
      rw [property_writeBack hheld]
      by_cases hfields : k ∈ w.fields.map Prod.fst
      · rw [if_pos hfields]
        exact h.stamped k hfields hown hattributes
      · rw [if_neg hfields]
        by_cases hread : k ∈ (ownFields w.read).map Prod.fst
        · rw [if_pos hread]
          exact h.read k hread hfields hattributes
        · rw [if_neg hread]
    · intro a ha
      rw [attributeOf_writeBack hheld hw ha]
      by_cases hread : js "attributes" ∈ (ownFields w.read).map Prod.fst
      · rw [if_pos hread]
        exact h.attributes hread a ha
      · rw [if_neg hread]

theorem mem_keys_of_schema {e : JsValue} (h : part.schema isDateTime e = true) {k : JsString}
    (hk : k ∈ part.required) : k ∈ (ownFields e).map Prod.fst := by
  obtain ⟨fs, rfl⟩ := (wellFormed_of_schema h).object
  rw [part.schema_eq, Schema.object, Bool.and_eq_true, Bool.and_eq_true] at h
  have hdefined := List.all_eq_true.mp h.1.1 k hk
  by_contra hnot
  have hmissing : getOwn k fs = .undefined := getOwn_of_not_mem hnot
  rw [hmissing] at hdefined
  cases hdefined

/-- The writes of the passes are of that kind. -/
theorem writesOwned_of_pass {input : PassInput} (hvalid : ValidGraph isDateTime doc)
    (hw : w ∈ input.writes doc) : WritesOwned input.owned w := by
  have hannotated {entity : JsValue} (hentity : entity ∈ doc.entities) :
      js "attributes" ∈ (ownFields entity).map Prod.fst :=
    mem_keys_of_schema (hvalid .entities entity hentity) (by simp [GraphPart.required])
  cases input with
  | score rt scorer now stored =>
    obtain ⟨entity, hentity, rfl⟩ := List.mem_map.mp hw
    have hid : js "id" ∉ [js "attributes"] := by decide
    refine ⟨hid, fun k hk => absurd hk List.not_mem_nil, ?_, ?_⟩
    · intro _
      exact ⟨hannotated hentity, _, rfl, rfl⟩
    · intro hnot
      exact absurd (List.mem_singleton_self _) hnot
  | classify ct now =>
    obtain ⟨entity, hentity, hmatch⟩ := List.mem_filterMap.mp hw
    obtain ⟨pattern, -, rfl⟩ := Option.map_eq_some_iff.mp hmatch
    have hid : js "id" ∉ [js "last_seen", js "attributes"] := by decide
    refine ⟨hid, fun k hk => absurd hk List.not_mem_nil, ?_, ?_⟩
    · intro _
      exact ⟨hannotated (List.mem_filter.mp hentity).1, _, rfl, rfl⟩
    · intro hnot
      exact absurd (List.mem_cons_of_mem _ (List.mem_singleton_self _)) hnot
  | reconcile R =>
    have hshape {part : GraphPart} {verdict : JsValue → Option JsString} {records : List JsValue}
        (h : w ∈ statusWrites part verdict records) : WritesOwned ⟨[js "status"], []⟩ w := by
      obtain ⟨e, he, hverdict⟩ := List.mem_filterMap.mp h
      obtain ⟨status, -, rfl⟩ := Option.map_eq_some_iff.mp hverdict
      have hid : js "id" ∉ [js "status"] := by decide
      have hnot : js "attributes" ∉ [js "status"] := by decide
      refine ⟨hid, fun k hk => hk, ?_, fun _ => rfl⟩
      intro hattributes
      exact absurd hattributes hnot
    rcases List.mem_append.mp hw with hw | hw
    · exact hshape hw
    · exact hshape hw

/-! ### Runs -/

/-- What holds in every state: the schema accepts the graph, and what is to be written is of the kind of
its pass. -/
structure WriterLaw (isDateTime : JsString → Bool) (s : GraphWriting) : Prop where
  valid : ValidGraph isDateTime s.doc
  pending : ∀ pass ∈ s.passes, ∀ w ∈ pass.pending, WritesOwned pass.input.owned w

theorem refused_sublist (input : PassInput) (ws : List WriteBack) (hw : w ∈ input.refused ws) : w ∈ ws := by
  cases input with
  | score rt scorer now stored => exact hw
  | _ => cases hw

/-- A write finds its record, and leaves the others as they are. -/
theorem write_cases {s : GraphWriting} (i : ℕ) : s.write isDateTime i = s ∨
    ∃ input w ws, s.passes[i]? = some ⟨input, w :: ws⟩ ∧
      ((w.call isDateTime s.doc = none ∧
          s.write isDateTime i = ⟨s.doc, s.passes.set i ⟨input, input.refused ws⟩⟩) ∨
        ∃ doc, w.call isDateTime s.doc = some doc ∧
          s.write isDateTime i = ⟨doc, s.passes.set i ⟨input, ws⟩⟩) := by
  rw [GraphWriting.write]
  cases hpass : s.passes[i]? with
  | none => exact .inl rfl
  | some pass =>
    obtain ⟨input, pending⟩ := pass
    cases pending with
    | nil => exact .inl rfl
    | cons w ws =>
      refine .inr ⟨input, w, ws, rfl, ?_⟩
      dsimp only
      cases hcall : w.call isDateTime s.doc with
      | none => exact .inl ⟨rfl, rfl⟩
      | some doc => exact .inr ⟨doc, rfl, rfl⟩

theorem writerLaw_step {s : GraphWriting} (h : WriterLaw isDateTime s) (event : WriterEvent) :
    WriterLaw isDateTime ((graphWriters isDateTime).next s event) := by
  cases event with
  | upsert part record =>
    refine ⟨?_, h.pending⟩
    change ValidGraph isDateTime ((callGraph isDateTime (part.op record) s.doc).getD s.doc)
    cases hcall : callGraph isDateTime (part.op record) s.doc with
    | none => exact h.valid
    | some doc => exact (callGraph_eq_some.mp hcall).2
  | start input =>
    refine ⟨h.valid, Automaton.forall_snoc h.pending ?_⟩
    intro w hw
    exact writesOwned_of_pass h.valid hw
  | write i =>
    change WriterLaw isDateTime (s.write isDateTime i)
    rcases write_cases i with hsame | ⟨input, w, ws, hpass, ⟨-, hnext⟩ | ⟨doc, hcall, hnext⟩⟩
    · rw [hsame]
      exact h
    · rw [hnext]
      refine ⟨h.valid, Automaton.forall_set h.pending i ?_⟩
      intro v hv
      exact h.pending _ (List.mem_of_getElem? hpass) v (List.mem_cons_of_mem _ (refused_sublist input ws hv))
    · rw [hnext]
      refine ⟨(callGraph_eq_some.mp hcall).2, Automaton.forall_set h.pending i ?_⟩
      intro v hv
      exact h.pending _ (List.mem_of_getElem? hpass) v (List.mem_cons_of_mem _ hv)

/-- A write comes on a record that is, outside of the fields of the pass, as the pass has read it. -/
def WritesCurrent (s : GraphWriting) : WriterEvent → Prop
  | .write i => ∀ input w ws k held, s.passes[i]? = some ⟨input, w :: ws⟩ → idOf w.read = some k →
      recordById k (w.part.records s.doc) = some held → StillCurrent input.owned w held
  | _ => True

/-- The event is not an upsert of the record by another writer than the passes. -/
def Spares (part : GraphPart) (id : JsString) : WriterEvent → Prop
  | .upsert part' record => part' = part → getOwn (js "id") record ≠ .str id
  | _ => True

theorem changesOnly_refl (owned : OwnedFields) (e : JsValue) : ChangesOnly owned e e :=
  ⟨fun _ _ _ => rfl, fun _ _ => rfl⟩

theorem ChangesOnly.trans {a b c : JsValue} (h : ChangesOnly owned a b) (h' : ChangesOnly owned b c) :
    ChangesOnly owned a c :=
  ⟨fun k hk hown => (h'.keys k hk hown).trans (h.keys k hk hown),
    fun a ha => (h'.attributes a ha).trans (h.attributes a ha)⟩

/-- The fields of each pass are among those of all. -/
theorem ChangesOnly.of_pass {input : PassInput} {e e' : JsValue} (h : ChangesOnly input.owned e e') :
    ChangesOnly passFields e e' := by
  cases input with
  | score rt scorer now stored =>
    exact ⟨fun k hk _ => h.keys k hk List.not_mem_nil, fun a ha => h.attributes a fun hown =>
      ha ((List.sublist_append_left _ [js "role", js "role_confidence"]).mem hown)⟩
  | classify ct now =>
    exact ⟨fun k hk _ => h.keys k hk List.not_mem_nil, fun a ha => h.attributes a fun hown =>
      ha ((List.sublist_append_right [js "health_score", js "health_grade"] _).mem hown)⟩
  | reconcile R =>
    exact ⟨fun k hk hown => h.keys k hk hown, fun a _ => h.attributes a List.not_mem_nil⟩

/-- An event that does not touch the record, or writes over it what is current, changes no other fields
than those of the passes. -/
theorem changesOnly_step {s : GraphWriting} (h : WriterLaw isDateTime s) {event : WriterEvent}
    (hcurrent : WritesCurrent s event) (hspares : Spares part id event) {e : JsValue}
    (he : recordById id (part.records s.doc) = some e) :
    ∃ e', recordById id (part.records ((graphWriters isDateTime).next s event).doc) = some e' ∧
      ChangesOnly passFields e e' := by
  cases event with
  | upsert part' record =>
    change ∃ e', recordById id (part.records
      ((callGraph isDateTime (part'.op record) s.doc).getD s.doc)) = some e' ∧ _
    cases hcall : callGraph isDateTime (part'.op record) s.doc with
    | none => exact ⟨e, he, changesOnly_refl _ _⟩
    | some doc =>
      refine ⟨e, ?_, changesOnly_refl _ _⟩
      obtain ⟨k, hk⟩ := id_of_callGraph hcall
      obtain ⟨rfl, -⟩ := callGraph_eq_some.mp hcall
      rw [Option.getD_some]
      -- the one record an upsert touches is not the one watched
      by_cases hpart : part' = part
      · subst hpart
        have hother : id ≠ k := by
          rintro rfl
          exact hspares rfl hk
        rw [GraphPart.records_put, recordById_upsert hk, if_neg hother]
        exact he
      · rw [GraphPart.records_put_ne (Ne.symm hpart)]
        exact he
  | start input => exact ⟨e, he, changesOnly_refl _ _⟩
  | write i =>
    change ∃ e', recordById id (part.records (s.write isDateTime i).doc) = some e' ∧ _
    rcases write_cases i with hsame | ⟨input, w, ws, hpass, ⟨-, hnext⟩ | ⟨doc, hcall, hnext⟩⟩
    · rw [hsame]
      exact ⟨e, he, changesOnly_refl _ _⟩
    · rw [hnext]
      exact ⟨e, he, changesOnly_refl _ _⟩
    · rw [hnext]
      have hw := h.pending _ (List.mem_of_getElem? hpass) w (List.mem_cons_self ..)
      obtain ⟨k, hk, -, hrecords, hothers⟩ := writeBack_call hw.id hcall
      by_cases hpart : part = w.part
      · subst hpart
        rw [hrecords id]
        by_cases hid : id = k
        · subst hid
          rw [if_pos rfl, he]
          refine ⟨_, rfl, ChangesOnly.of_pass ((changesOnly_iff ?_ hw).mpr ?_)⟩
          · exact (h.valid.wellFormed (recordById_mem he).1).object
          · exact hcurrent input w ws id e hpass hk he
        · rw [if_neg hid]
          exact ⟨e, he, changesOnly_refl _ _⟩
      · rw [hothers part hpart]
        exact ⟨e, he, changesOnly_refl _ _⟩

theorem writerLaw_reaches {C : GraphWriting → WriterEvent → Prop} {s t : GraphWriting}
    (hreaches : (graphWriters isDateTime).Reaches C s t) (h : WriterLaw isDateTime s) :
    WriterLaw isDateTime t :=
  hreaches.invariant h fun _ event hlaw _ _ => writerLaw_step hlaw event

/-- In every interleaving, a write of a pass changes the fields of the pass only just when the record is
still as the pass has read it; and in a run whose writes all come on such records, what another writer has
made of a record stays, but for the fields of the passes. -/
theorem passes_keep_updates (isDateTime : JsString → Bool) (doc : GraphDocument)
    (hvalid : ValidGraph isDateTime doc) (s : GraphWriting)
    (hreaches : (graphWriters isDateTime).Reaches Automaton.anyEvent ⟨doc, []⟩ s) :
    (∀ (i : ℕ) (input : PassInput) (w : WriteBack) (ws : List WriteBack) (k : JsString) (held : JsValue)
        (doc' : GraphDocument), s.passes[i]? = some ⟨input, w :: ws⟩ →
      idOf w.read = some k → recordById k (w.part.records s.doc) = some held →
      w.call isDateTime s.doc = some doc' →
      ∃ e', recordById k (w.part.records doc') = some e' ∧
        (ChangesOnly input.owned held e' ↔ StillCurrent input.owned w held)) ∧
    ∀ (part : GraphPart) (id : JsString) (e : JsValue) (t : GraphWriting),
      recordById id (part.records s.doc) = some e →
      (graphWriters isDateTime).Reaches (fun s event => WritesCurrent s event ∧ Spares part id event) s t →
      ∃ e', recordById id (part.records t.doc) = some e' ∧ ChangesOnly passFields e e' := by
  have hlaw : WriterLaw isDateTime s :=
    writerLaw_reaches hreaches ⟨hvalid, fun _ h => absurd h List.not_mem_nil⟩
  constructor
  · intro i input w ws k held doc' hpass hk hheld hcall
    have hw := hlaw.pending _ (List.mem_of_getElem? hpass) w (List.mem_cons_self ..)
    obtain ⟨k', hk', -, hrecords, -⟩ := writeBack_call hw.id hcall
    obtain rfl : k = k' := Option.some.inj (hk.symm.trans hk')
    refine ⟨merged (some held) w.record, ?_, changesOnly_iff ?_ hw⟩
    · rw [hrecords, if_pos rfl, hheld]
    · exact (hlaw.valid.wellFormed (recordById_mem hheld).1).object
  · intro part id e t he hrun
    have hkept : WriterLaw isDateTime t ∧
        ∃ e', recordById id (part.records t.doc) = some e' ∧ ChangesOnly passFields e e' := by
      apply hrun.invariant ⟨hlaw, e, he, changesOnly_refl _ _⟩
      rintro x event ⟨hx, e', he', hchanged⟩ - ⟨hcurrent, hspares⟩
      obtain ⟨e'', he'', hstep⟩ := changesOnly_step hx hcurrent hspares he'
      exact ⟨writerLaw_step hx event, e'', he'', hchanged.trans hstep⟩
    exact hkept.2

/-! ### A score that brings an image back -/

def labScores : ScoreRuntime where
  dateMs s := if s = nasSeen then some 0 else some 3600000
  decay _ _ := some 1
  number q := .ofScaledInt q.floor 0

/-- All entities are scored at the time, and nothing has been observed. -/
def labScoring : PassInput := .score labScores (healthScorer none none []) 3600000 (some [])

/-- The proxy, with another image -/
def upgradedProxy : Fields :=
  foundEntity ⟨js "nas", none, laterSeen⟩ (js "docker-swarm") (js "service:nas:proxy") (js "service")
    (.str (js "proxy")) [(js "image", .str (js "traefik:v4"))]

/-- The scorer has read the graph, and then the new image has been written. -/
def scoringProxy : GraphWriting :=
  (graphWriters fun _ => true).after ⟨seenProxy, []⟩ [.start labScoring, .upsert .entities upgradedProxy]

theorem scoringProxy_reached :
    (graphWriters fun _ => true).Reaches Automaton.anyEvent ⟨seenProxy, []⟩ scoringProxy := by
  apply Automaton.Permits.reaches
  exact ⟨trivial, trivial, trivial, trivial, trivial⟩

/-- What the scorer writes of the proxy, as it has read it -/
def proxyScore : WriteBack where
  part := .entities
  read := .obj (proxyAt nasSeen)
  fields := [(js "attributes", withAnnotation (.obj (proxyAt nasSeen))
    [(js "health_score", .num (.ofNat 100)), (js "health_grade", .str (js "healthy"))])]

def upgraded : JsValue := merged (some (.obj (proxyAt nasSeen))) upgradedProxy

theorem scoringProxy_pass : scoringProxy.passes[0]? = some ⟨labScoring, [proxyScore]⟩ := by
  with_unfolding_all rfl

theorem scoringProxy_held :
    recordById (js "service:nas:proxy") (proxyScore.part.records scoringProxy.doc) = some upgraded := by
  with_unfolding_all rfl

theorem proxyScore_call : ∃ doc', proxyScore.call (fun _ => true) scoringProxy.doc = some doc' := by
  apply Option.isSome_iff_exists.mp
  with_unfolding_all rfl

theorem passes_keep_updates_proxy :
    ∃ doc' e', proxyScore.call (fun _ => true) scoringProxy.doc = some doc' ∧
      recordById (js "service:nas:proxy") (proxyScore.part.records doc') = some e' ∧
      (ChangesOnly labScoring.owned upgraded e' ↔ StillCurrent labScoring.owned proxyScore upgraded) := by
  obtain ⟨doc', hcall⟩ := proxyScore_call
  obtain ⟨e', he', hiff⟩ := (passes_keep_updates (fun _ => true) seenProxy
    (seenProxy_valid (.ofNat 1800000)) scoringProxy scoringProxy_reached).1 0 labScoring proxyScore []
    (js "service:nas:proxy") upgraded doc' scoringProxy_pass rfl scoringProxy_held hcall
  exact ⟨doc', e', hcall, he', hiff⟩

/-- The write of the score brings the old image back. -/
theorem score_reverts_image : ¬ ∀ (isDateTime : JsString → Bool) (doc : GraphDocument) (s : GraphWriting)
    (i : ℕ) (input : PassInput) (w : WriteBack) (ws : List WriteBack) (k : JsString) (held e' : JsValue)
    (doc' : GraphDocument), ValidGraph isDateTime doc →
    (graphWriters isDateTime).Reaches Automaton.anyEvent ⟨doc, []⟩ s → s.passes[i]? = some ⟨input, w :: ws⟩ →
    idOf w.read = some k → recordById k (w.part.records s.doc) = some held →
    w.call isDateTime s.doc = some doc' → recordById k (w.part.records doc') = some e' →
    ChangesOnly input.owned held e' := by
  intro h
  obtain ⟨doc', hcall⟩ := proxyScore_call
  have hw : WritesOwned labScoring.owned proxyScore :=
    @writesOwned_of_pass (fun _ => true) _ seenProxy _ (seenProxy_valid (.ofNat 1800000))
      (by with_unfolding_all exact List.mem_singleton_self _)
  obtain ⟨k, hk, -, hrecords, -⟩ := writeBack_call hw.id hcall
  obtain rfl : js "service:nas:proxy" = k := Option.some.inj hk
  have hafter := hrecords (js "service:nas:proxy")
  rw [if_pos rfl, scoringProxy_held] at hafter
  have hlaw := h _ _ _ _ _ _ _ _ _ _ _ (seenProxy_valid (.ofNat 1800000)) scoringProxy_reached
    scoringProxy_pass hk scoringProxy_held hcall hafter
  have himage := hlaw.attributes (js "image") (by decide)
  have hold : attributeOf (js "image") (merged (some upgraded) proxyScore.record) =
      .str (js "traefik:v3") := by
    with_unfolding_all rfl
  have hnew : attributeOf (js "image") upgraded = .str (js "traefik:v4") := by
    with_unfolding_all rfl
  rw [hold, hnew] at himage
  exact absurd (JsValue.str.inj himage) (by decide)

end Homelab
