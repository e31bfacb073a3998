import Homelab.ProbeScans
import Homelab.SweepMachine

/-! When the keys of the findings of one scan tell them apart. -/
namespace Homelab
open Js

/-! ### Texts with a separator -/

/-- A text is split at its first separator in one way. -/
theorem separated_inj {a b : JsString} {c : CodeUnit} {x y : JsString} (ha : c ∉ a) (hb : c ∉ b) :
    a ++ c :: x = b ++ c :: y ↔ a = b ∧ x = y := by
  constructor
  · intro h
    induction a generalizing b with
    | nil =>
      cases b with
      | nil => exact ⟨rfl, (List.cons.inj h).2⟩
      | cons d b =>
        obtain ⟨rfl, -⟩ := List.cons.inj h
        exact absurd (List.mem_cons_self ..) hb
    | cons e a ih =>
      cases b with
      | nil =>
        obtain ⟨rfl, -⟩ := List.cons.inj h
        exact absurd (List.mem_cons_self ..) ha
      | cons d b =>
        obtain ⟨rfl, htail⟩ := List.cons.inj h
        obtain ⟨rfl, hxy⟩ := ih (fun h => ha (List.mem_cons_of_mem _ h))
          (fun h => hb (List.mem_cons_of_mem _ h)) htail
        exact ⟨rfl, hxy⟩
  · rintro ⟨rfl, rfl⟩
    rfl

/-- The patterns of the findings have no colon, so that a key gives the pattern and the resource. -/
theorem keyText_inj {platform pattern pattern' resource resource' : JsString} (h : 0x3A ∉ pattern)
    (h' : 0x3A ∉ pattern') : keyText platform pattern resource = keyText platform pattern' resource' ↔
      pattern = pattern' ∧ resource = resource' := by
  have hcolon (r : JsString) : js ":" ++ r = 0x3A :: r := rfl
  rw [keyText, keyText, List.append_assoc, List.append_assoc, List.append_assoc, List.append_assoc,
    List.append_assoc, List.append_assoc, List.append_cancel_left_eq, List.append_cancel_left_eq, hcolon,
    hcolon, separated_inj h h']

/-! ### Findings of one scan -/

def Finding.key (platform : JsString) (f : Finding) : JsString := keyText platform f.pattern f.resource

/-- Findings of different faults have different keys. -/
def KeysApart (platform : JsString) (findings : List Finding) : Prop :=
  ∀ f ∈ findings, ∀ g ∈ findings, f.fault ≠ g.fault → f.key platform ≠ g.key platform

/-- The id and the date that an observation is stamped with, and the time at which it is checked -/
structure Stamp where
  id : JsString
  discoveredAt : JsString
  now : Option ℤ

def Finding.stamped (platform : JsString) (p : Stamp × Finding) : Observation :=
  makeObservation platform p.1.id p.1.discoveredAt p.2

/-- A run of the probe with an empty cache and a store that works persists an observation of each fault. -/
def PersistsEach (platform : JsString) (findings : List Finding) : Prop :=
  ∀ (windowMs : JsNumber) (stamped : List (Stamp × Finding)), stamped.map Prod.snd = findings →
    ∃ fresh, (runProbe (some (stamped.map fun p => ⟨Finding.stamped platform p, p.1.now, true, true⟩)) false
        ⟨windowMs, []⟩).returned = some fresh ∧
      ∀ f ∈ findings, ∃ p ∈ stamped, p.2.fault = f.fault ∧ Finding.stamped platform p ∈ fresh

/-- The scan keeps the faults that it finds apart. -/
def TellsApart (platform : JsString) (findings : List Finding) : Prop :=
  KeysApart platform findings ∧ PersistsEach platform findings

theorem key_stamped (platform : JsString) (p : Stamp × Finding) :
    (Finding.stamped platform p).key = p.2.key platform := rfl

/-- A key that is not let through is one of a mark. -/
theorem check_marked {cache : DedupCache} {key : JsString} {now : Option ℤ}
    (h : (cache.check key now).1 = true) : key ∈ cache.seen.map Prod.fst := by
  by_contra hnot
  have hnone : cache.seen.lookup key = none := by
    rw [List.lookup_eq_none_iff]
    intro mark hmark
    rw [bne_iff_ne]
    rintro rfl
    exact hnot (List.mem_map_of_mem hmark)
  have hbeq : @instBEqOfDecidableEq JsString _ = List.instBEq := lawful_beq_subsingleton _ _
  rw [DedupCache.check, Throttle.check, hbeq, hnone] at h
  cases h

/-- The marks after a question are those before it, and the one of the key. -/
theorem check_marks {cache : DedupCache} {key k : JsString} {now : Option ℤ}
    (h : k ∈ (cache.check key now).2.seen.map Prod.fst) : k = key ∨ k ∈ cache.seen.map Prod.fst := by
  rw [DedupCache.check, Throttle.check] at h
  split_ifs at h
  · exact .inr h
  · obtain ⟨mark, hmark, rfl⟩ := List.mem_map.mp h
    rcases List.mem_cons.mp hmark with rfl | hmark
    · exact .inl rfl
    · exact .inr (List.mem_map_of_mem (List.mem_filter.mp hmark).1)

/-- Of each key that is not marked an observation is persisted. -/
theorem collect_persists (platform : JsString) (stamped : List (Stamp × Finding)) (cache : DedupCache) :
    ∃ fresh, (collect false (stamped.map fun p => ⟨Finding.stamped platform p, p.1.now, true, true⟩)
        cache).returned = some fresh ∧
      ∀ p ∈ stamped, p.2.key platform ∈ cache.seen.map Prod.fst ∨
        ∃ q ∈ stamped, q.2.key platform = p.2.key platform ∧ Finding.stamped platform q ∈ fresh := by
  induction stamped generalizing cache with
  | nil => exact ⟨[], rfl, fun p hp => absurd hp List.not_mem_nil⟩
  | cons p stamped ih =>
    obtain ⟨fresh, hfresh, hrest⟩ := ih (cache.check (p.2.key platform) p.1.now).2
    rw [List.map_cons, collect, key_stamped]
    dsimp only
    by_cases hduplicate : (cache.check (p.2.key platform) p.1.now).1 = true
    · rw [if_pos hduplicate, if_pos rfl]
      refine ⟨fresh, ?_, ?_⟩
      · rw [ProbeRun.after, hfresh]
        rfl
      · intro q hq
        rcases List.mem_cons.mp hq with rfl | hq
        · exact .inl (check_marked hduplicate)
        · rcases hrest q hq with hmarked | ⟨q', hq', hkey, hmem⟩
          · rcases check_marks hmarked with hkey | hmarked
            · rw [hkey]
              exact .inl (check_marked hduplicate)
            · exact .inl hmarked
          · exact .inr ⟨q', List.mem_cons_of_mem _ hq', hkey, hmem⟩
    · rw [if_neg hduplicate, if_neg (by decide), if_pos rfl, if_pos rfl]
      refine ⟨Finding.stamped platform p :: fresh, ?_, ?_⟩
      · rw [ProbeRun.after, hfresh]
        rfl
      · intro q hq
        rcases List.mem_cons.mp hq with rfl | hq
        · exact .inr ⟨q, List.mem_cons_self .., rfl, List.mem_cons_self ..⟩
        · rcases hrest q hq with hmarked | ⟨q', hq', hkey, hmem⟩
          · rcases check_marks hmarked with hkey | hmarked
            · exact .inr ⟨p, List.mem_cons_self .., hkey.symm, List.mem_cons_self ..⟩
            · exact .inl hmarked
          · exact .inr ⟨q', List.mem_cons_of_mem _ hq', hkey, List.mem_cons_of_mem _ hmem⟩

/-- Keys that tell the faults apart are all that a scan needs. -/
theorem tellsApart_iff {platform : JsString} {findings : List Finding} :
    TellsApart platform findings ↔ KeysApart platform findings := by
  refine ⟨And.left, fun h => ⟨h, ?_⟩⟩
  intro windowMs stamped hstamped
  obtain ⟨fresh, hfresh, hpersisted⟩ := collect_persists platform stamped ⟨windowMs, []⟩
  refine ⟨fresh, hfresh, ?_⟩
  intro f hf
  rw [← hstamped] at hf
  obtain ⟨p, hp, rfl⟩ := List.mem_map.mp hf
  obtain ⟨q, hq, hkey, hmem⟩ := (hpersisted p hp).resolve_left List.not_mem_nil
  refine ⟨q, hq, ?_, hmem⟩
  by_contra hfault
  have hin {r : Stamp × Finding} (hr : r ∈ stamped) : r.2 ∈ findings := by
    rw [← hstamped]
    exact List.mem_map_of_mem hr
  exact h q.2 (hin hq) p.2 (hin hp) hfault hkey

/-! ### Alerts -/

/-- The alerts share the first label that names their resource, or they have none and share the name. -/
def SameSource (labels labels' : Option Labels) : Prop :=
  alertSource (labels.getD []) = alertSource (labels'.getD []) ∧
    (alertSource (labels.getD []) = none → shownName (labels.getD []) = shownName (labels'.getD []))

/-- Alerts of different names do not share that. -/
def AlertsApart (alerts : List Alert) : Prop :=
  ∀ x ∈ alerts, ∀ y ∈ alerts, alertName x.labels ≠ alertName y.labels → ¬ SameSource x.labels y.labels

theorem alertSource_mem {labels : Labels} {p : JsString × JsString} (h : alertSource labels = some p) :
    p.1 ∈ resourceLabelPriority := by
  obtain ⟨key, hkey, hval⟩ := List.exists_of_findSome?_eq_some h
  obtain ⟨val, -, rfl⟩ := Option.map_eq_some_iff.mp hval
  exact hkey

/-- What stands before the slash of a resource, and what after it -/
def resourceParts (labels : Option Labels) : JsString × JsString :=
  (alertSource (labels.getD [])).getD (js "alert", shownName (labels.getD []))

theorem alertResource_eq (labels : Option Labels) :
    alertResource labels = (resourceParts labels).1 ++ 0x2F :: (resourceParts labels).2 := by
  cases labels with
  | none => rfl
  | some labels =>
    rw [alertResource, resourceParts, Option.getD_some]
    cases alertSource labels with
    | none => rfl
    | some p => exact List.append_assoc ..

theorem resourceParts_slash (labels : Option Labels) : 0x2F ∉ (resourceParts labels).1 := by
  have hkeys : ∀ key ∈ js "alert" :: resourceLabelPriority, 0x2F ∉ key := by decide
  rw [resourceParts]
  cases hsource : alertSource (labels.getD []) with
  | none => exact hkeys _ (List.mem_cons_self ..)
  | some p => exact hkeys _ (List.mem_cons_of_mem _ (alertSource_mem hsource))

theorem alertResource_inj {labels labels' : Option Labels} :
    alertResource labels = alertResource labels' ↔ SameSource labels labels' := by
  have halert : js "alert" ∉ resourceLabelPriority := by decide
  rw [alertResource_eq, alertResource_eq, separated_inj (resourceParts_slash _) (resourceParts_slash _),
    ← Prod.ext_iff, resourceParts, resourceParts, SameSource]
  cases hsource : alertSource (labels.getD []) with
  | none =>
    cases hsource' : alertSource (labels'.getD []) with
    | none => simp
    | some p =>
      constructor
      · intro h
        have hmem := alertSource_mem hsource'
        rw [← show (js "alert", shownName (labels.getD [])) = p from h] at hmem
        exact absurd hmem halert
      · rintro ⟨h, -⟩
        cases h
  | some p =>
    cases hsource' : alertSource (labels'.getD []) with
    | none =>
      constructor
      · intro h
        have hmem := alertSource_mem hsource
        rw [show p = (js "alert", shownName (labels'.getD [])) from h] at hmem
        exact absurd hmem halert
      · rintro ⟨h, -⟩
        cases h
    | some p' => simp

theorem findings_alerts {rt : TextRuntime} {api : AlertApi} {answer : Option (List Alert)} :
    ∃ times, scanAlerts rt api answer = (firing api.state (answer.getD [])).map (alertFinding rt times) := by
  cases api <;> exact ⟨_, rfl⟩

theorem alerts_apart_iff (platform : JsString) (rt : TextRuntime) (api : AlertApi)
    (answer : Option (List Alert)) : TellsApart platform (scanAlerts rt api answer) ↔
      AlertsApart (firing api.state (answer.getD [])) := by
  obtain ⟨times, hscan⟩ := @findings_alerts rt api answer
  have hkey (x y : Alert) : (alertFinding rt times x).key platform = (alertFinding rt times y).key platform ↔
      SameSource x.labels y.labels := by
    have hpattern : 0x3A ∉ js "prometheus_alert" := by decide
    rw [← alertResource_inj]
    exact (keyText_inj hpattern hpattern).trans (and_iff_right rfl)
  have hfault (x y : Alert) : (alertFinding rt times x).fault ≠ (alertFinding rt times y).fault ↔
      alertName x.labels ≠ alertName y.labels := not_congr ⟨Fault.alert.inj, congrArg Fault.alert⟩
  rw [tellsApart_iff, KeysApart, AlertsApart, hscan, List.forall_mem_map]
  refine forall₂_congr fun x _ => ?_
  rw [List.forall_mem_map]
  refine forall₂_congr fun y _ => ?_
  rw [hfault, ne_eq (Finding.key ..), hkey]

/-! ### Entities of the graph -/

variable {isDateTime : JsString → Bool} {doc : GraphDocument} {e x y : JsValue} {id kind : JsString}

theorem mem_entitiesByKind : e ∈ entitiesByKind kind doc ↔
    e ∈ doc.entities ∧ property (js "kind") e = .str kind := by
  rw [entitiesByKind, List.mem_filter, and_congr_right_iff]
  intro _
  cases property (js "kind") e with
  | str s => exact decide_eq_true_iff.trans ⟨congrArg JsValue.str, JsValue.str.inj⟩
  | _ => exact ⟨fun h => absurd h Bool.false_ne_true, fun h => absurd h JsValue.noConfusion⟩

theorem textOf_id (h : idOf e = some id) : textOf (js "id") e = id := by
  rw [textOf, idOf_eq_some.mp h]
  rfl

theorem idOf_text (hvalid : ValidGraph isDateTime doc) (he : e ∈ doc.entities) :
    idOf e = some (textOf (js "id") e) := by
  obtain ⟨id, hid⟩ := (@ValidGraph.wellFormed _ _ .entities hvalid e he).id
  rw [hid, textOf_id hid]

/-- An entity has its id alone. -/
theorem entity_of_id (hvalid : ValidGraph isDateTime doc) (hunique : UniqueGraph doc) (hx : x ∈ doc.entities)
    (hy : y ∈ doc.entities) (h : textOf (js "id") x = textOf (js "id") y) : x = y := by
  have hfound := recordById_of_mem hunique.1 hx (idOf_text hvalid hx)
  rw [h] at hfound
  exact Option.some.inj (hfound.symm.trans (recordById_of_mem hunique.1 hy (idOf_text hvalid hy)))

/-! ### Capacity -/

section Capacity

variable (a : Arithmetic) (opts : CapacityOptions) (samples : JsValue → Option CapacitySample)
  (lastSamples : LastSamples)

/-- The entity is reported with this pattern, by its sample and the one before it. -/
def FillsUp (e : JsValue) (pattern : CapacityPattern) : Prop :=
  ∃ sample, samples e = some sample ∧
    sample.pattern a opts (lastSamples.lookup (textOf (js "id") e)) = some pattern

/-- Different entities of one kind and name are not reported with one pattern. -/
def CapacityApart (doc : GraphDocument) : Prop :=
  ∀ x ∈ enumerateCapacityEntities doc, ∀ y ∈ enumerateCapacityEntities doc,
    textOf (js "id") x ≠ textOf (js "id") y → textOf (js "kind") x = textOf (js "kind") y →
      textOf (js "name") x = textOf (js "name") y →
        ∀ pattern, ¬ (FillsUp a opts samples lastSamples x pattern ∧
          FillsUp a opts samples lastSamples y pattern)

variable {a : Arithmetic} {opts : CapacityOptions} {samples : JsValue → Option CapacitySample}
  {lastSamples : LastSamples} {entities : List JsValue}

/-- Each entity is judged by the sample that was remembered of it before the scan. -/
theorem mem_probeCapacities (hids : (entities.map (textOf (js "id"))).Nodup) {f : Finding} :
    f ∈ (probeCapacities a opts samples entities lastSamples).1 ↔ ∃ e ∈ entities, ∃ sample pattern,
      samples e = some sample ∧
        sample.pattern a opts (lastSamples.lookup (textOf (js "id") e)) = some pattern ∧
          f = capacityFinding a opts (lastSamples.lookup (textOf (js "id") e)) sample e pattern := by
  induction entities generalizing lastSamples with
  | nil => simp [probeCapacities]
  | cons e entities ih =>
    rw [List.map_cons, List.nodup_cons] at hids
    -- the sample kept for one entity is not read for another: their ids differ
    have hlast : ∀ x ∈ entities, (probeCapacity a opts (samples e) e lastSamples).2.lookup
        (textOf (js "id") x) = lastSamples.lookup (textOf (js "id") x) := by
      intro x hx
      have hne : textOf (js "id") x ≠ textOf (js "id") e := by
        intro h
        exact hids.1 (h ▸ List.mem_map_of_mem hx)
      cases samples e with
      | none => rfl
      | some sample =>
        rw [probeCapacity]
        dsimp only
        rw [List.lookup_cons, beq_false_of_ne hne]
        exact Throttle.lookup_filter_ne hne lastSamples
    have hfirst : f ∈ (probeCapacity a opts (samples e) e lastSamples).1.toList ↔ ∃ sample pattern,
        samples e = some sample ∧
          sample.pattern a opts (lastSamples.lookup (textOf (js "id") e)) = some pattern ∧
            f = capacityFinding a opts (lastSamples.lookup (textOf (js "id") e)) sample e pattern := by
      cases samples e with
      | none => simp [probeCapacity]
      | some sample =>
        rw [probeCapacity]
        dsimp only
        rw [Option.mem_toList, Option.map_eq_some_iff]
        constructor
        · rintro ⟨pattern, hpattern, rfl⟩
          exact ⟨sample, pattern, rfl, hpattern, rfl⟩
        · rintro ⟨_, pattern, hsample, hpattern, rfl⟩
          obtain rfl := Option.some.inj hsample
          exact ⟨pattern, hpattern, rfl⟩
    rw [probeCapacities]
    dsimp only
    rw [List.mem_append, hfirst, ih hids.2]
    constructor
    · rintro (⟨sample, pattern, h⟩ | ⟨x, hx, sample, pattern, h⟩)
      · exact ⟨e, List.mem_cons_self .., sample, pattern, h⟩
      · rw [hlast x hx] at h
        exact ⟨x, List.mem_cons_of_mem _ hx, sample, pattern, h⟩
    · rintro ⟨x, hx, sample, pattern, h⟩
      rcases List.mem_cons.mp hx with rfl | hx
      · exact .inl ⟨sample, pattern, h⟩
      · refine .inr ⟨x, hx, sample, pattern, ?_⟩
        rw [hlast x hx]
        exact h

theorem mem_capacityEntities : e ∈ enumerateCapacityEntities doc ↔
    e ∈ doc.entities ∧ ∃ kind ∈ capacityKinds, property (js "kind") e = .str kind := by
  rw [enumerateCapacityEntities, List.mem_flatMap]
  constructor
  · rintro ⟨kind, hkind, he⟩
    obtain ⟨hmem, hproperty⟩ := mem_entitiesByKind.mp he
    exact ⟨hmem, kind, hkind, hproperty⟩
  · rintro ⟨hmem, kind, hkind, hproperty⟩
    exact ⟨kind, hkind, mem_entitiesByKind.mpr ⟨hmem, hproperty⟩⟩

theorem capacity_ids (hvalid : ValidGraph isDateTime doc) (hunique : UniqueGraph doc) :
    ((enumerateCapacityEntities doc).map (textOf (js "id"))).Nodup := by
  have hnodup : doc.entities.Nodup := List.Nodup.of_map _ hunique.1
  have hentities : (enumerateCapacityEntities doc).Nodup := by
    rw [enumerateCapacityEntities, List.nodup_flatMap]
    constructor
    · intro kind _
      exact hnodup.filter _
    · have hkinds : capacityKinds.Nodup := by decide
      refine hkinds.imp ?_
      intro kind kind' hne e he he'
      have hkind := (mem_entitiesByKind.mp he).2
      rw [(mem_entitiesByKind.mp he').2] at hkind
      exact hne (JsValue.str.inj hkind).symm
  apply hentities.map_on
  intro x hx y hy h
  exact entity_of_id hvalid hunique (mem_capacityEntities.mp hx).1 (mem_capacityEntities.mp hy).1 h

theorem capacityKey_inj {prev prev' : Option CapacitySample} {sample sample' : CapacitySample}
    {pattern pattern' : CapacityPattern} (platform : JsString) (hx : x ∈ enumerateCapacityEntities doc)
    (hy : y ∈ enumerateCapacityEntities doc) :
    (capacityFinding a opts prev sample x pattern).key platform =
        (capacityFinding a opts prev' sample' y pattern').key platform ↔
      pattern = pattern' ∧ textOf (js "kind") x = textOf (js "kind") y ∧
        textOf (js "name") x = textOf (js "name") y := by
  have hcolon (p : CapacityPattern) : 0x3A ∉ p.text := by
    cases p <;> decide
  have hpattern : pattern.text = pattern'.text ↔ pattern = pattern' := by
    cases pattern <;> cases pattern' <;> decide
  have hslash {e : JsValue} (he : e ∈ enumerateCapacityEntities doc) : 0x2F ∉ textOf (js "kind") e := by
    obtain ⟨-, kind, hkind, hproperty⟩ := mem_capacityEntities.mp he
    have hkinds : ∀ kind ∈ capacityKinds, 0x2F ∉ kind := by decide
    rw [textOf, hproperty]
    exact hkinds kind hkind
  have hresource (e : JsValue) : textOf (js "kind") e ++ js "/" ++ textOf (js "name") e =
      textOf (js "kind") e ++ 0x2F :: textOf (js "name") e := List.append_assoc ..
  refine (keyText_inj (hcolon pattern) (hcolon pattern')).trans ?_
  rw [hpattern, capacityFinding, capacityFinding]
  dsimp only
  rw [hresource, hresource, separated_inj (hslash hx) (hslash hy)]

theorem capacity_apart_iff (platform : JsString) (hvalid : ValidGraph isDateTime doc)
    (hunique : UniqueGraph doc) : TellsApart platform (scanCapacity a opts samples doc lastSamples).1 ↔
      CapacityApart a opts samples lastSamples doc := by
  have hmem (f : Finding) := @mem_probeCapacities a opts samples lastSamples _ (capacity_ids hvalid hunique) f
  rw [tellsApart_iff, KeysApart, CapacityApart, scanCapacity]
  constructor
  · rintro h x hx y hy hid hkind hname pattern ⟨⟨sample, hsample, hpattern⟩, ⟨sample', hsample', hpattern'⟩⟩
    have hfault {prev prev' : Option CapacitySample} : (capacityFinding a opts prev sample x pattern).fault ≠
        (capacityFinding a opts prev' sample' y pattern).fault := by
      intro h
      exact hid (Fault.capacity.inj h)
    apply h _ ((hmem _).mpr ⟨x, hx, sample, pattern, hsample, hpattern, rfl⟩) _
      ((hmem _).mpr ⟨y, hy, sample', pattern, hsample', hpattern', rfl⟩) hfault
    exact (capacityKey_inj platform hx hy).mpr ⟨rfl, hkind, hname⟩
  · intro h f hf g hg hfault hkey
    obtain ⟨x, hx, sample, pattern, hsample, hpattern, rfl⟩ := (hmem f).mp hf
    obtain ⟨y, hy, sample', pattern', hsample', hpattern', rfl⟩ := (hmem g).mp hg
    obtain ⟨rfl, hkind, hname⟩ := (capacityKey_inj platform hx hy).mp hkey
    have hid : textOf (js "id") x ≠ textOf (js "id") y := by
      intro h
      exact hfault (congrArg Fault.capacity h)
    exact h x hx y hy hid hkind hname pattern ⟨⟨sample, hsample, hpattern⟩, ⟨sample', hsample', hpattern'⟩⟩

end Capacity

/-! ### Datastores -/

section Datastores

variable (a : Arithmetic) (signals : JsValue → Option EngineHealthSignals)

/-- The signal of the datastore is reported. -/
def Raises (e : JsValue) (signal : DatastoreSignal) : Prop :=
  ∃ measured, signals e = some measured ∧ signal ∈ measured.reported a

/-- No datastore runs out of connections and of memory, and different ones of one name are not reported
with one pattern. -/
structure DatastoresApart (doc : GraphDocument) : Prop where
  exhausted : ∀ e ∈ entitiesByKind (js "datastore") doc,
    ¬ (Raises a signals e .connections ∧ Raises a signals e .memory)
  named : ∀ x ∈ entitiesByKind (js "datastore") doc, ∀ y ∈ entitiesByKind (js "datastore") doc,
    textOf (js "id") x ≠ textOf (js "id") y → textOf (js "name") x = textOf (js "name") y →
      ∀ signal signal', signal.pattern = signal'.pattern →
        ¬ (Raises a signals x signal ∧ Raises a signals y signal')

variable {a : Arithmetic} {signals : JsValue → Option EngineHealthSignals}

theorem mem_scanDatastores {platform : JsString} {f : Finding} :
    f ∈ scanDatastores a platform signals (.ok doc) ↔ ∃ e ∈ entitiesByKind (js "datastore") doc,
      ∃ measured signal, signals e = some measured ∧ signal ∈ measured.reported a ∧
        f = datastoreFinding a measured e signal := by
  rw [scanDatastores, List.mem_flatMap]
  refine exists_congr fun e => and_congr_right fun _ => ?_
  cases signals e with
  | none => simp [probeDatastore]
  | some measured =>
    rw [probeDatastore, List.mem_map]
    constructor
    · rintro ⟨signal, hsignal, rfl⟩
      exact ⟨measured, signal, rfl, hsignal, rfl⟩
    · rintro ⟨_, signal, hmeasured, hsignal, rfl⟩
      obtain rfl := Option.some.inj hmeasured
      exact ⟨signal, hsignal, rfl⟩

theorem datastoreKey_inj {measured measured' : EngineHealthSignals} {signal signal' : DatastoreSignal}
    (platform : JsString) : (datastoreFinding a measured x signal).key platform =
        (datastoreFinding a measured' y signal').key platform ↔
      signal.pattern = signal'.pattern ∧ textOf (js "name") x = textOf (js "name") y := by
  have hcolon (s : DatastoreSignal) : 0x3A ∉ s.pattern := by
    cases s <;> decide
  refine (keyText_inj (hcolon signal) (hcolon signal')).trans (and_congr_right fun _ => ?_)
  exact ⟨List.append_cancel_left, congrArg (js "datastore/" ++ ·)⟩

/-- Two signals share a pattern when one is of the connections and the other of the memory. -/
theorem pattern_shared {signal signal' : DatastoreSignal} (h : signal.pattern = signal'.pattern)
    (hne : signal ≠ signal') : signal = .connections ∧ signal' = .memory ∨
      signal = .memory ∧ signal' = .connections := by
  cases signal <;> cases signal' <;> first | exact absurd rfl hne | exact absurd h (by decide) | decide

theorem datastores_apart_iff (platform : JsString) (hvalid : ValidGraph isDateTime doc)
    (hunique : UniqueGraph doc) : TellsApart platform (scanDatastores a platform signals (.ok doc)) ↔
      DatastoresApart a signals doc := by
  rw [tellsApart_iff, KeysApart]
  constructor
  · intro h
    have happart {x y : JsValue} (hx : x ∈ entitiesByKind (js "datastore") doc)
        (hy : y ∈ entitiesByKind (js "datastore") doc) {signal signal' : DatastoreSignal}
        (hraises : Raises a signals x signal) (hraises' : Raises a signals y signal')
        (hfault : Fault.datastore (textOf (js "id") x) signal ≠ .datastore (textOf (js "id") y) signal')
        (hname : textOf (js "name") x = textOf (js "name") y) : signal.pattern ≠ signal'.pattern := by
      obtain ⟨measured, hmeasured, hsignal⟩ := hraises
      obtain ⟨measured', hmeasured', hsignal'⟩ := hraises'
      intro hpattern
      apply h _ (mem_scanDatastores.mpr ⟨x, hx, measured, signal, hmeasured, hsignal, rfl⟩) _
        (mem_scanDatastores.mpr ⟨y, hy, measured', signal', hmeasured', hsignal', rfl⟩) hfault
      exact (datastoreKey_inj platform).mpr ⟨hpattern, hname⟩
    constructor
    · rintro e he ⟨hconnections, hmemory⟩
      exact happart he he hconnections hmemory
        (fun h => DatastoreSignal.noConfusion (Fault.datastore.inj h).2) rfl
        rfl
    · rintro x hx y hy hid hname signal signal' hpattern ⟨hraises, hraises'⟩
      exact happart hx hy hraises hraises' (fun h => hid (Fault.datastore.inj h).1) hname hpattern
  · intro h f hf g hg hfault hkey
    obtain ⟨x, hx, measured, signal, hmeasured, hsignal, rfl⟩ := mem_scanDatastores.mp hf
    obtain ⟨y, hy, measured', signal', hmeasured', hsignal', rfl⟩ := mem_scanDatastores.mp hg
    obtain ⟨hpattern, hname⟩ := (datastoreKey_inj platform).mp hkey
    have hraises : Raises a signals x signal := ⟨measured, hmeasured, hsignal⟩
    have hraises' : Raises a signals y signal' := ⟨measured', hmeasured', hsignal'⟩
    by_cases hid : textOf (js "id") x = textOf (js "id") y
    · obtain rfl := entity_of_id hvalid hunique (mem_entitiesByKind.mp hx).1 (mem_entitiesByKind.mp hy).1 hid
      have hne : signal ≠ signal' := by
        rintro rfl
        exact hfault rfl
      rcases pattern_shared hpattern hne with ⟨rfl, rfl⟩ | ⟨rfl, rfl⟩
      · exact h.exhausted x hx ⟨hraises, hraises'⟩
      · exact h.exhausted x hx ⟨hraises', hraises⟩
    · exact h.named x hx y hy hid hname signal signal' hpattern ⟨hraises, hraises'⟩

end Datastores

/-! ### The three scans -/

/-- Each of the scans keeps the faults that it finds apart, and `runProbe` persists them, just when the
alerts, the entities that fill up and the signals of the datastores can be told apart by their sources,
kinds and names. -/
theorem scans_tell_apart_iff (platform : JsString) (isDateTime : JsString → Bool) (doc : GraphDocument)
    (hvalid : ValidGraph isDateTime doc) (hunique : UniqueGraph doc) :
    (∀ rt api answer, TellsApart platform (scanAlerts rt api answer) ↔
        AlertsApart (firing api.state (answer.getD []))) ∧
      (∀ a opts samples lastSamples, TellsApart platform (scanCapacity a opts samples doc lastSamples).1 ↔
        CapacityApart a opts samples lastSamples doc) ∧
      (∀ a signals, TellsApart platform (scanDatastores a platform signals (.ok doc)) ↔
        DatastoresApart a signals doc) ∧
      ∀ a signals error, TellsApart platform (scanDatastores a platform signals (.error error)) := by
  refine ⟨alerts_apart_iff platform, ?_, ?_, ?_⟩
  · intro a opts samples lastSamples
    exact capacity_apart_iff platform hvalid hunique
  · intro a signals
    exact datastores_apart_iff platform hvalid hunique
  · intro a signals error
    rw [tellsApart_iff]
    intro f hf g hg hfault
    rw [List.mem_singleton.mp hf, List.mem_singleton.mp hg] at hfault
    exact absurd rfl hfault

def arrayGraph : GraphDocument := ⟨[.obj nasArray], []⟩

theorem arrayGraph_valid : ValidGraph (fun _ => true) arrayGraph := by
  intro part e he
  cases part with
  | entities =>
    obtain rfl := List.mem_singleton.mp he
    with_unfolding_all rfl
  | edges => cases he

theorem scans_tell_apart_iff_array :
    (∀ rt api answer, TellsApart (js "nas") (scanAlerts rt api answer) ↔
        AlertsApart (firing api.state (answer.getD []))) ∧
      (∀ a opts samples lastSamples, TellsApart (js "nas")
        (scanCapacity a opts samples arrayGraph lastSamples).1 ↔
        CapacityApart a opts samples lastSamples arrayGraph) ∧
      (∀ a signals, TellsApart (js "nas") (scanDatastores a (js "nas") signals (.ok arrayGraph)) ↔
        DatastoresApart a signals arrayGraph) ∧
      ∀ a signals error, TellsApart (js "nas") (scanDatastores a (js "nas") signals (.error error)) :=
  scans_tell_apart_iff (js "nas") (fun _ => true) arrayGraph arrayGraph_valid
    ⟨List.nodup_singleton _, List.nodup_nil⟩

def hostAlert (name : String) : Alert where
  labels := some [(js "alertname", js name), (js "instance", js "nas:9100")]
  annotations := none
  state := some (js "active")
  startsAt := none
  generatorURL := none
  activeAt := none

/-- Two alerts that fire for one host share their key. -/
theorem host_alerts_merged : ¬ ∀ (platform : JsString) (rt : TextRuntime) (api : AlertApi)
    (answer : Option (List Alert)), KeysApart platform (scanAlerts rt api answer) := by
  intro h
  have hapart := h (js "nas") ⟨id, fun _ _ _ => none⟩ .alertmanager
    (some [hostAlert "HighLoad", hostAlert "DiskFull"])
  have hfault : Fault.alert (js "HighLoad") ≠ .alert (js "DiskFull") := by decide
  apply hapart _ (List.mem_cons_self ..) _ (List.mem_cons_of_mem _ (List.mem_singleton_self _)) hfault
  decide +kernel

end Homelab
