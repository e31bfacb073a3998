import Homelab.SweepSteps

/-! The records as the reports of a sweep leave them, seen through the properties that the
reconciliation reads. -/
namespace Homelab
open Js Locked

variable {isDateTime : JsString → Bool} {doc doc' : GraphDocument} {part : GraphPart} {id : JsString}
  {record : Fields} {records : List JsValue} {now : JsString} {keys : List JsString} {a b c : Option JsValue}

namespace GraphPart

def required : GraphPart → List JsString
  | .entities => [js "id", js "kind", js "name", js "attributes", js "source", js "discovered_at",
      js "last_seen", js "status"]
  | .edges => [js "id", js "from", js "to", js "type", js "discovered_at", js "last_seen", js "status"]

def properties (isDateTime : JsString → Bool) : GraphPart → List (JsString × Schema)
  | .entities => [(js "id", someText), (js "kind", someText), (js "name", someText),
      (js "attributes", Schema.object [] [] true), (js "source", someText),
      (js "platformId", anyText), (js "discovered_at", Schema.string isDateTime),
      (js "last_seen", Schema.string isDateTime), (js "status", statusSchema)]
  | .edges => [(js "id", someText), (js "from", someText), (js "to", someText), (js "type", someText),
      (js "attributes", Schema.object [] [] true), (js "discovered_at", Schema.string isDateTime),
      (js "last_seen", Schema.string isDateTime), (js "status", statusSchema)]

theorem schema_eq (part : GraphPart) (isDateTime : JsString → Bool) :
    part.schema isDateTime = Schema.object part.required (part.properties isDateTime) false := by
  cases part <;> rfl

/-- The properties that the reconciliation reads. -/
def reads : GraphPart → List JsString
  | .entities => [js "platformId", js "last_seen", js "status"]
  | .edges => [js "from", js "to", js "last_seen", js "status"]

/-- The properties that each report has -/
def reportKeys (part : GraphPart) : List JsString := part.required ++ part.reads

end GraphPart

/-- A record as an enumerator builds it at the time of the pass: all that its type requires is there,
it is active and has just been seen, and an entity is one of the platform. -/
structure ReportedAt (part : GraphPart) (platformId now : JsString) (record : Fields) : Prop where
  typed : ∀ k ∈ part.required, k ∈ record.map Prod.fst
  status : getOwn (js "status") record = .str (js "active")
  lastSeen : getOwn (js "last_seen") record = .str now
  platform : part = .entities → getOwn (js "platformId") record = .str platformId

theorem ReportedAt.reads {p : JsString} (h : ReportedAt part p now record) {k : JsString}
    (hk : k ∈ part.reads) : k ∈ record.map Prod.fst := by
  cases part with
  | entities =>
    rcases List.mem_cons.mp hk with rfl | hk
    · by_contra hnot
      have hmissing := getOwn_of_not_mem hnot
      rw [h.platform rfl] at hmissing
      cases hmissing
    · exact h.typed k ((List.drop_sublist 6 GraphPart.entities.required).mem hk)
  | edges =>
    apply h.typed
    simp only [GraphPart.reads, List.mem_cons, List.not_mem_nil, or_false] at hk
    rcases hk with rfl | rfl | rfl | rfl <;> simp [GraphPart.required]

theorem ReportedAt.reportKeys {p : JsString} (h : ReportedAt part p now record) {k : JsString}
    (hk : k ∈ part.reportKeys) : k ∈ record.map Prod.fst :=
  (List.mem_append.mp hk).elim (h.typed k) h.reads

/-! ### Which reports are accepted -/

/-- The schema accepts the record by itself. -/
def ValidReport (isDateTime : JsString → Bool) (part : GraphPart) (record : Fields) : Prop :=
  part.schema isDateTime (.obj record) = true

instance (isDateTime : JsString → Bool) (part : GraphPart) (record : Fields) :
    Decidable (ValidReport isDateTime part record) := inferInstanceAs (Decidable (_ = true))

/-- A report is accepted over a record of the graph just when it is by itself. -/
theorem schema_merged {old : Option JsValue} (hold : ∀ e ∈ old, part.schema isDateTime e = true)
    (htyped : ∀ k ∈ part.required, k ∈ record.map Prod.fst) :
    part.schema isDateTime (merged old record) = true ↔ ValidReport isDateTime part record := by
  rw [ValidReport, merged, part.schema_eq]
  have hfields : (∀ f ∈ ownFields (old.getD .undefined),
        (false || (part.properties isDateTime).any fun prop => prop.1 = f.1) = true) ∧
      ∀ prop ∈ part.properties isDateTime, (!(getOwn prop.1 (ownFields (old.getD .undefined))).isDefined ||
        prop.2 (getOwn prop.1 (ownFields (old.getD .undefined)))) = true := by
    cases old with
    | none => exact ⟨fun _ h => absurd h List.not_mem_nil, fun _ _ => rfl⟩
    | some e =>
      have he := hold e rfl
      obtain ⟨fs, rfl⟩ := (wellFormed_of_schema he).object
      rw [part.schema_eq, Schema.object, Bool.and_eq_true, Bool.and_eq_true, List.all_eq_true,
        List.all_eq_true, List.all_eq_true] at he
      exact ⟨he.1.2, he.2⟩
  rw [Schema.object_spread htyped hfields.1 hfields.2]

/-- The record of an upsert is one that is merged, and the others are as they were. -/
theorem upsert_cases (record : Fields) (records : List JsValue) :
    ∃ old : Option JsValue, (∀ e ∈ old, e ∈ records) ∧ merged old record ∈ upsert record records ∧
      ∀ e ∈ upsert record records, e ∈ records ∨ e = merged old record := by
  rw [upsert]
  cases hidx : records.findIdx? (isId (getOwn (js "id") record)) with
  | none =>
    refine ⟨none, ?_, List.mem_append_right _ (List.mem_singleton_self _), ?_⟩
    · intro e he
      cases he
    intro e he
    rcases List.mem_append.mp he with he | he
    · exact .inl he
    · exact .inr (List.mem_singleton.mp he)
  | some idx =>
    obtain ⟨hlt, -, -⟩ := List.findIdx?_eq_some_iff_getElem.mp hidx
    have hget : records.getD idx .undefined = records[idx] := by
      rw [List.getD_eq_getElem?_getD, List.getElem?_eq_getElem hlt, Option.getD_some]
    refine ⟨some records[idx], ?_, ?_, ?_⟩
    · intro e he
      cases he
      exact List.getElem_mem hlt
    · dsimp only
      rw [hget]
      exact List.mem_set hlt _
    · intro e he
      dsimp only at he
      rw [hget] at he
      exact List.mem_or_eq_of_mem_set he

/-- The call of a report returns just when the record is accepted. -/
theorem callGraph_report (hvalid : ValidGraph isDateTime doc)
    (htyped : ∀ k ∈ part.required, k ∈ record.map Prod.fst) :
    callGraph isDateTime (part.op record) doc = if ValidReport isDateTime part record then
      some (part.put doc (upsert record (part.records doc))) else none := by
  obtain ⟨old, hold, hmem, hcases⟩ := upsert_cases record (part.records doc)
  have hmerged := schema_merged (fun e he => hvalid part e (hold e he)) htyped
  split_ifs with haccepted
  · rw [callGraph_eq_some]
    refine ⟨rfl, validGraph_put hvalid ?_⟩
    intro e he
    rcases hcases e he with he | rfl
    · exact hvalid part e he
    · exact hmerged.mpr haccepted
  · rw [Option.eq_none_iff_forall_not_mem]
    intro doc' hcall
    obtain ⟨rfl, hvalid'⟩ := callGraph_eq_some.mp hcall
    apply haccepted
    apply hmerged.mp
    apply hvalid' part
    rw [GraphPart.records_put]
    exact hmem

/-! ### The records as they are reported -/

/-- The record of an id once the reports have come in: the last one that is accepted, or the old one. -/
def asReported (isDateTime : JsString → Bool) (part : GraphPart) (id : JsString) (reports : List Fields)
    (old : Option JsValue) : Option JsValue :=
  reports.foldl (fun held record =>
    if ValidReport isDateTime part record ∧ idOf (.obj record) =
      some id then some (.obj record) else held) old

/-- The records agree on these properties, or neither is there. -/
def AgreeOn (keys : List JsString) : Option JsValue → Option JsValue → Prop :=
  Option.Rel fun e x => ∀ k ∈ keys, property k e = property k x

theorem agreeOn_refl (keys : List JsString) (a : Option JsValue) : AgreeOn keys a a := by
  cases a with
  | none => exact .none
  | some e => exact .some fun _ _ => rfl

theorem AgreeOn.symm (h : AgreeOn keys a b) : AgreeOn keys b a := by
  cases h with
  | none => exact .none
  | some h => exact .some fun k hk => (h k hk).symm

theorem AgreeOn.trans (h : AgreeOn keys a b) (h' : AgreeOn keys b c) : AgreeOn keys a c := by
  cases h with
  | none => exact h'
  | some h =>
    cases h' with
    | some h' => exact .some fun k hk => (h k hk).trans (h' k hk)

theorem AgreeOn.mono {keys' : List JsString} (h : AgreeOn keys a b) (hkeys : ∀ k ∈ keys', k ∈ keys) :
    AgreeOn keys' a b := by
  cases h with
  | none => exact .none
  | some h => exact .some fun k hk => h k (hkeys k hk)

theorem AgreeOn.of_some (h : AgreeOn keys a b) {x : JsValue} (hb : b = some x) :
    ∃ e, a = some e ∧ ∀ k ∈ keys, property k e = property k x := by
  subst hb
  cases h with
  | some h => exact ⟨_, rfl, h⟩

theorem AgreeOn.to_some (h : AgreeOn keys a b) {e : JsValue} (ha : a = some e) :
    ∃ x, b = some x ∧ ∀ k ∈ keys, property k e = property k x := by
  subst ha
  cases h with
  | some h => exact ⟨_, rfl, h⟩

/-- The properties that the reconciliation reads are the same. -/
def Agree (part : GraphPart) : Option JsValue → Option JsValue → Prop :=
  Option.Rel fun e x => ∀ k ∈ part.reads, property k e = property k x

theorem Agree.property_eq {held held' : Option JsValue} (h : Agree part held held') {k : JsString}
    (hk : k ∈ part.reads) :
    (held.map (property k)).getD .undefined = (held'.map (property k)).getD .undefined := by
  cases h with
  | some h => exact h k hk
  | none => rfl

/-- What is held has a record in the graph. -/
theorem Agree.of_held {held held' : Option JsValue} (h : Agree part held held') {x : JsValue}
    (hx : held' = some x) : ∃ e, held = some e ∧ ∀ k ∈ part.reads, property k e = property k x :=
  AgreeOn.of_some h hx

/-- What is in the graph is held. -/
theorem Agree.to_held {held held' : Option JsValue} (h : Agree part held held') {e : JsValue}
    (he : held = some e) : ∃ x, held' = some x ∧ ∀ k ∈ part.reads, property k e = property k x :=
  AgreeOn.to_some h he

/-- The reports leave the old record of an id as it is, or they decide on it, whatever it was. -/
theorem asReported_same (isDateTime : JsString → Bool) (part : GraphPart) (id : JsString)
    (reports : List Fields) (old old' : Option JsValue) :
    (asReported isDateTime part id reports old = old ∧ asReported isDateTime part id reports old' = old' ∧
      ∀ record ∈ reports, ValidReport isDateTime part record → idOf (.obj record) ≠ some id) ∨
    ∃ record ∈ reports, ValidReport isDateTime part record ∧ idOf (.obj record) = some id ∧
      asReported isDateTime part id reports old = some (.obj record) ∧
      asReported isDateTime part id reports old' = some (.obj record) := by
  induction reports generalizing old old' with
  | nil => exact .inl ⟨rfl, rfl, fun _ h => absurd h List.not_mem_nil⟩
  | cons record reports ih =>
    rw [asReported, asReported, List.foldl_cons, List.foldl_cons]
    split_ifs with hreport
    · rcases ih (some (.obj record)) (some (.obj record)) with
        ⟨hsame, hsame', -⟩ | ⟨later, hlater, haccepted, hid, hheld, hheld'⟩
      · exact .inr ⟨record, List.mem_cons_self .., hreport.1, hreport.2, hsame, hsame'⟩
      · exact .inr ⟨later, List.mem_cons_of_mem _ hlater, haccepted, hid, hheld, hheld'⟩
    · rcases ih old old' with ⟨hsame, hsame', hnone⟩ | ⟨later, hlater, haccepted, hid, hheld, hheld'⟩
      · refine .inl ⟨hsame, hsame', ?_⟩
        intro later hlater haccepted hid
        rcases List.mem_cons.mp hlater with rfl | hlater
        · exact hreport ⟨haccepted, hid⟩
        · exact hnone later hlater haccepted hid
      · exact .inr ⟨later, List.mem_cons_of_mem _ hlater, haccepted, hid, hheld, hheld'⟩

theorem asReported_cases (isDateTime : JsString → Bool) (part : GraphPart) (id : JsString)
    (reports : List Fields) (old : Option JsValue) :
    (asReported isDateTime part id reports old = old ∧
      ∀ record ∈ reports, ValidReport isDateTime part record → idOf (.obj record) ≠ some id) ∨
    ∃ record ∈ reports, ValidReport isDateTime part record ∧ idOf (.obj record) = some id ∧
      asReported isDateTime part id reports old = some (.obj record) := by
  rcases asReported_same isDateTime part id reports old old with
    ⟨hsame, -, hnone⟩ | ⟨record, hrecord, haccepted, hid, hheld, -⟩
  · exact .inl ⟨hsame, hnone⟩
  · exact .inr ⟨record, hrecord, haccepted, hid, hheld⟩

/-- The last report of an id that is accepted -/
def lastReport (isDateTime : JsString → Bool) (part : GraphPart) (id : JsString) (reports : List Fields) :
    Option Fields :=
  (reports.filter fun record => ValidReport isDateTime part record ∧ idOf (.obj record) = some id).getLast?

theorem asReported_eq (isDateTime : JsString → Bool) (part : GraphPart) (id : JsString)
    (reports : List Fields) (old : Option JsValue) :
    asReported isDateTime part id reports old = ((lastReport isDateTime part id reports).map .obj).or old := by
  induction reports using List.reverseRecOn with
  | nil => rfl
  | append_singleton reports record ih =>
    rw [asReported, List.foldl_append, List.foldl_cons, List.foldl_nil, lastReport, List.filter_append]
    by_cases haccepted : ValidReport isDateTime part record ∧ idOf (.obj record) = some id
    · rw [if_pos haccepted, List.filter_singleton, decide_eq_true haccepted, Bool.cond_true,
        List.getLast?_append, List.getLast?_singleton]
      rfl
    · rw [if_neg haccepted, List.filter_singleton, decide_eq_false haccepted, Bool.cond_false,
        List.append_nil]
      exact ih

theorem lastReport_mem {isDateTime : JsString → Bool} {reports : List Fields}
    (h : lastReport isDateTime part id reports = some record) :
    record ∈ reports ∧ ValidReport isDateTime part record ∧ idOf (.obj record) = some id := by
  obtain ⟨hmem, haccepted⟩ := List.mem_filter.mp (List.mem_of_getLast? h)
  exact ⟨hmem, of_decide_eq_true haccepted⟩

theorem asReported_append (isDateTime : JsString → Bool) (part : GraphPart) (id : JsString)
    (first later : List Fields) (old : Option JsValue) :
    asReported isDateTime part id (first ++ later) old =
      asReported isDateTime part id later (asReported isDateTime part id first old) :=
  List.foldl_append

/-- The graph, after the reports of one part have come in, agrees with the records as reported. -/
theorem agreeOn_upsertAll {reports : List Fields}
    (hreports : ∀ record ∈ reports, ∃ p, ReportedAt part p now record)
    (hvalid : ValidGraph isDateTime doc) {old : Option JsValue}
    (hagree : AgreeOn part.reportKeys (recordById id (part.records doc)) old) :
    AgreeOn part.reportKeys (recordById id (part.records (upsertAll isDateTime part reports doc).1))
      (asReported isDateTime part id reports old) := by
  induction reports generalizing doc old with
  | nil => exact hagree
  | cons record reports ih =>
    obtain ⟨⟨p, hrecord⟩, hrest⟩ := List.forall_mem_cons.mp hreports
    rw [upsertAll, callGraph_report hvalid hrecord.typed, asReported, List.foldl_cons]
    by_cases haccepted : ValidReport isDateTime part record
    · have hcall : callGraph isDateTime (part.op record) doc =
          some (part.put doc (upsert record (part.records doc))) := by
        rw [callGraph_report hvalid hrecord.typed, if_pos haccepted]
      rw [if_pos haccepted]
      apply ih hrest (callGraph_eq_some.mp hcall).2
      obtain ⟨k, hk⟩ := (wellFormed_of_schema haccepted).id
      rw [GraphPart.records_put, recordById_upsert (idOf_eq_some.mp hk), hk]
      by_cases hid : id = k
      · subst hid
        rw [if_pos rfl, if_pos ⟨haccepted, rfl⟩]
        apply Option.Rel.some
        intro l hl
        rw [merged, property_obj, getOwn_spread, if_pos (hrecord.reportKeys hl), property_obj]
      · have hother : ¬ (ValidReport isDateTime part record ∧ some k = some id) := by
          rintro ⟨-, hsame⟩
          exact hid (Option.some.inj hsame).symm
        rw [if_neg hid, if_neg hother]
        exact hagree
    · have hother : ¬ (ValidReport isDateTime part record ∧ idOf (.obj record) = some id) := by
        rintro ⟨h, -⟩
        exact haccepted h
      rw [if_neg haccepted, if_neg hother]
      exact ih hrest hvalid hagree

/-! ### The reports of a sweep -/

/-- All that the platforms of a sweep have reported, one platform after the other. -/
def reported (platforms : List PlatformVisit) (part : GraphPart) : List Fields :=
  platforms.flatMap fun p => p.visit.reports part

theorem agreeOn_enumeratePlatform {p : PlatformVisit}
    (hreports : ∀ part, ∀ record ∈ p.visit.reports part, ReportedAt part p.platformId now record)
    (hvalid : ValidGraph isDateTime doc) {old : Option JsValue}
    (hagree : AgreeOn part.reportKeys (recordById id (part.records doc)) old) :
    AgreeOn part.reportKeys (recordById id (part.records (enumeratePlatform isDateTime p doc).1))
      (asReported isDateTime part id (p.visit.reports part) old) := by
  have hmade (part : GraphPart) (record : Fields) (h : record ∈ p.visit.reports part) :
      ∃ q, ReportedAt part q now record := ⟨p.platformId, hreports part record h⟩
  obtain ⟨platformId, platformKind, visit⟩ := p
  cases visit with
  | enumerated entities edges =>
    have hentities := @upserts_all isDateTime .entities entities doc
    have hedges := @upserts_all isDateTime .edges edges (upsertAll isDateTime .entities entities doc).1
    cases part with
    | entities =>
      -- the edges come in after the entities, and leave them as they are
      change AgreeOn (GraphPart.reportKeys .entities) (recordById id (GraphPart.records .entities
        (upsertAll isDateTime .edges edges (upsertAll isDateTime .entities entities doc).1).1)) _
      rw [hedges.other .entities (by decide)]
      exact agreeOn_upsertAll (hmade .entities) hvalid hagree
    | edges =>
      apply agreeOn_upsertAll (hmade .edges) (hentities.valid hvalid)
      rw [hentities.other .edges (by decide)]
      exact hagree
  | _ => cases part <;> exact hagree

theorem agreeOn_enumeratePlatforms {ps : List PlatformVisit}
    (hreports : ∀ p ∈ ps, ∀ part, ∀ record ∈ p.visit.reports part, ReportedAt part p.platformId now record)
    (hvalid : ValidGraph isDateTime doc) {old : Option JsValue}
    (hagree : AgreeOn part.reportKeys (recordById id (part.records doc)) old) :
    AgreeOn part.reportKeys (recordById id (part.records (enumeratePlatforms isDateTime ps doc).1))
      (asReported isDateTime part id (reported ps part) old) := by
  induction ps generalizing doc old with
  | nil => exact hagree
  | cons p ps ih =>
    obtain ⟨hfirst, hrest⟩ := List.forall_mem_cons.mp hreports
    rw [enumeratePlatforms, reported, List.flatMap_cons, asReported_append]
    apply ih hrest ((enumerates_platform p doc).valid hvalid)
    exact agreeOn_enumeratePlatform hfirst hvalid hagree

/-- The platforms that a sweep visits -/
def SweepInput.visited (input : SweepInput) : List PlatformVisit :=
  input.platforms.filter fun p => passesFilter input.platformFilter p.platformId

theorem SweepInput.mem_reported {input : SweepInput} :
    record ∈ reported input.visited part ↔ ∃ p, input.Reports part p record := by
  rw [reported, List.mem_flatMap]
  constructor
  · rintro ⟨p, hp, hrecord⟩
    obtain ⟨hin, hfilter⟩ := List.mem_filter.mp hp
    exact ⟨p.platformId, p, hin, hfilter, rfl, hrecord⟩
  · rintro ⟨_, p, hin, hfilter, -, hrecord⟩
    exact ⟨p, List.mem_filter.mpr ⟨hin, hfilter⟩, hrecord⟩

/-- What the platforms report has been built at the time of the pass. -/
def ReportsAt (input : SweepInput) (now : JsString) : Prop :=
  ∀ part p record, input.Reports part p record → ReportedAt part p now record

namespace SweepRuntime

variable (rt : SweepRuntime) (input : SweepInput) (prior : GraphDocument)

/-- The record of an id as the reports of the sweep leave it -/
def held (part : GraphPart) (id : JsString) : Option JsValue :=
  asReported rt.isDateTime part id (reported input.visited part) (recordById id (part.records prior))

/-- The graph that the enumeration leaves agrees with the records as reported. -/
theorem agreeOn_held {rt : SweepRuntime} {input : SweepInput} {prior : GraphDocument}
    (hreports : ReportsAt input now) (hvalid : ValidGraph rt.isDateTime prior) (part : GraphPart)
    (id : JsString) : AgreeOn part.reportKeys (recordById id (part.records (rt.enumerate input prior).1))
      (rt.held input prior part id) := by
  have hmade : ∀ p ∈ input.visited, ∀ part, ∀ record ∈ p.visit.reports part,
      ReportedAt part p.platformId now record := by
    intro p hp part record hrecord
    obtain ⟨hin, hfilter⟩ := List.mem_filter.mp hp
    exact hreports part p.platformId record ⟨p, hin, hfilter, rfl, hrecord⟩
  exact agreeOn_enumeratePlatforms hmade hvalid (agreeOn_refl _ _)

theorem agree_enumerate {rt : SweepRuntime} {input : SweepInput} {prior : GraphDocument}
    (hreports : ReportsAt input now) (hvalid : ValidGraph rt.isDateTime prior) (part : GraphPart)
    (id : JsString) :
    Agree part (recordById id (part.records (rt.enumerate input prior).1)) (rt.held input prior part id) :=
  (agreeOn_held hreports hvalid part id).mono fun _ hk => List.mem_append_right _ hk

end SweepRuntime

end Homelab
