import Homelab.DiscoveryTimes
import Homelab.ProbeKeys
import Mathlib.Data.List.Infix

/-! The edges that `DependencyEdgeDeriver.derive` finds between services, containers and datastores: a service
depends on another entity when one of its attributes mentions the name, the host or a port of it. -/
namespace Js

/-! ### Words between delimiters -/

section Delimited

variable {α : Type} (p : α → Bool) (w s : List α)

/-- The word stands in the text, at its ends or next to delimiters. -/
def Delimited : Prop :=
  ∃ before after, s = before ++ w ++ after ∧ (∀ c ∈ before.getLast?, p c = true) ∧
    ∀ c ∈ after.head?, p c = true

/-- The text begins with the word and ends there or goes on with a delimiter. -/
def beginsWith [BEq α] : Bool := w.isPrefixOf s && (s.drop w.length).head?.all p

/-- The text has the word at its beginning or after a delimiter. -/
def hasDelimited [BEq α] : Bool :=
  beginsWith p w s || s.tails.any fun
    | [] => false
    | c :: rest => p c && beginsWith p w rest

variable {p w s}

theorem beginsWith_iff [BEq α] [LawfulBEq α] :
    beginsWith p w s = true ↔ ∃ after, s = w ++ after ∧ ∀ c ∈ after.head?, p c = true := by
  rw [beginsWith, Bool.and_eq_true, List.isPrefixOf_iff_prefix, Option.all_eq_true]
  constructor
  · rintro ⟨⟨after, rfl⟩, hafter⟩
    rw [List.drop_left] at hafter
    exact ⟨after, rfl, fun c hc => hafter c hc⟩
  · rintro ⟨after, rfl, hafter⟩
    rw [List.drop_left]
    exact ⟨List.prefix_append w after, fun c hc => hafter c hc⟩

theorem hasDelimited_iff [BEq α] [LawfulBEq α] : hasDelimited p w s = true ↔ Delimited p w s := by
  rw [hasDelimited, Bool.or_eq_true, beginsWith_iff, List.any_eq_true]
  constructor
  · rintro (⟨after, rfl, hafter⟩ | ⟨tail, htail, hbegins⟩)
    · exact ⟨[], after, rfl, by simp, hafter⟩
    · obtain ⟨before, rfl⟩ := (List.mem_tails _ _).mp htail
      cases tail with
      | nil => cases hbegins
      | cons c rest =>
        obtain ⟨hc, hrest⟩ := Bool.and_eq_true_iff.mp hbegins
        obtain ⟨after, rfl, hafter⟩ := beginsWith_iff.mp hrest
        refine ⟨before ++ [c], after, by simp, ?_, hafter⟩
        intro d hd
        rw [List.getLast?_concat, Option.mem_some_iff] at hd
        exact hd ▸ hc
  · rintro ⟨before, after, rfl, hbefore, hafter⟩
    -- the word stands at the beginning, or the unit before it is a delimiter
    rcases List.eq_nil_or_concat' before with rfl | ⟨front, c, rfl⟩
    · exact .inl ⟨after, rfl, hafter⟩
    · right
      refine ⟨c :: (w ++ after), (List.mem_tails _ _).mpr ⟨front, by simp⟩, ?_⟩
      have hc : p c = true := hbefore c (by simp)
      have hbegins : beginsWith p w (w ++ after) = true := beginsWith_iff.mpr ⟨after, rfl, hafter⟩
      exact Bool.and_eq_true_iff.mpr ⟨hc, hbegins⟩

/-- The pieces of a text are what stands in it between delimiters and has none. -/
theorem mem_splitOnP_iff : w ∈ s.splitOnP p ↔ Delimited p w s ∧ ∀ c ∈ w, p c = false := by
  constructor
  · intro h
    -- the piece is the first one, or one of what follows the first delimiter
    induction hn : s.length using Nat.strong_induction_on generalizing s with
    | _ n ih =>
      cases hfind : s.find? p with
      | none =>
        have hfree : ∀ c ∈ s, p c = false := fun c hc => Bool.eq_false_iff.mpr (List.find?_eq_none.mp hfind c hc)
        rw [List.splitOnP_eq_singleton hfree, List.mem_singleton] at h
        subst h
        exact ⟨⟨[], [], by simp, by simp, by simp⟩, hfree⟩
      | some c =>
        obtain ⟨hc, piece, rest, rfl, hpiece⟩ := List.find?_eq_some_iff_append.mp hfind
        have hfree : ∀ d ∈ piece, p d = false := fun d hd => Bool.not_eq_true' _ ▸ hpiece d hd
        rw [List.splitOnP_append_cons_of_forall_mem hfree c hc, List.mem_cons] at h
        rcases h with rfl | h
        · exact ⟨⟨[], c :: rest, rfl, by simp, by simpa using hc⟩, hfree⟩
        · have hshorter : rest.length < n := by
            rw [← hn, List.length_append, List.length_cons]
            omega
          obtain ⟨⟨before, after, rfl, hbefore, hafter⟩, hw⟩ := ih _ hshorter h rfl
          refine ⟨⟨piece ++ c :: before, after, by simp, ?_, hafter⟩, hw⟩
          intro d hd
          cases hlast : before.getLast? with
          | none =>
            rw [List.getLast?_eq_none_iff.mp hlast, List.getLast?_concat, Option.mem_some_iff] at hd
            exact hd ▸ hc
          | some e => 
            have hd' : d ∈ before.getLast? := by
              simpa [List.getLast?_append, List.getLast?_cons, hlast] using hd
            exact hbefore d hd'
  · rintro ⟨⟨before, after, rfl, hbefore, hafter⟩, hw⟩
    have hrest : w ∈ (w ++ after).splitOnP p := by
      cases after with
      | nil =>
        rw [List.append_nil, List.splitOnP_eq_singleton hw]
        exact List.mem_singleton_self w
      | cons c rest =>
        rw [List.splitOnP_append_cons_of_forall_mem hw c (hafter c rfl)]
        exact List.mem_cons_self
    -- splitting at the last delimiter before the word leaves the pieces after it
    rcases List.eq_nil_or_concat' before with rfl | ⟨front, c, rfl⟩
    · exact hrest
    · have hc : p c = true := hbefore c (by simp)
      have hassoc : front ++ [c] ++ w ++ after = front ++ c :: (w ++ after) := by simp
      rw [hassoc, List.splitOnP_append_cons _ _ hc]
      exact List.mem_append_right _ hrest

end Delimited

end Js

namespace Homelab
open Js

/-! ### Attributes as texts -/

mutual
def walk : JsValue → List JsString
  | .str s => [s]
  | .num x => [x.toText]
  | .bool b => [(JsValue.bool b).coerce]
  | .arr es => walkAll es
  | .obj fs => walkFields fs
  | .undefined => []
  | .null => []
  | .bigint _ => []
  | .function => []
  | .symbol => []

def walkAll : List JsValue → List JsString
  | [] => []
  | v :: vs => walk v ++ walkAll vs

def walkFields : Fields → List JsString
  | [] => []
  | (_, v) :: fs => walk v ++ walkFields fs
end

def collectAttributeStrings (entity : JsValue) : List JsString := walk (property (js "attributes") entity)

/-- A text, number or truth value that stands somewhere in the value, as a text -/
inductive Leaf (s : JsString) : JsValue → Prop
  | text : Leaf s (.str s)
  | number {x : JsNumber} (h : x.toText = s) : Leaf s (.num x)
  | truth {b : Bool} (h : (JsValue.bool b).coerce = s) : Leaf s (.bool b)
  | element {es : List JsValue} {v : JsValue} (hv : v ∈ es) (h : Leaf s v) : Leaf s (.arr es)
  | field {fs : Fields} {k : JsString} {v : JsValue} (hv : (k, v) ∈ fs) (h : Leaf s v) : Leaf s (.obj fs)

mutual
theorem mem_walk (s : JsString) : ∀ v : JsValue, s ∈ walk v ↔ Leaf s v
  | .str t => by
    rw [walk, List.mem_singleton]
    constructor
    · rintro rfl
      exact .text
    · intro h
      cases h
      rfl
  | .num x => by
    rw [walk, List.mem_singleton]
    constructor
    · intro h
      exact .number h.symm
    · intro h
      cases h with
      | number h => exact h.symm
  | .bool b => by
    rw [walk, List.mem_singleton]
    constructor
    · intro h
      exact .truth h.symm
    · intro h
      cases h with
      | truth h => exact h.symm
  | .arr es => by
    rw [walk, mem_walkAll s es]
    constructor
    · rintro ⟨v, hv, h⟩
      exact .element hv h
    · intro h
      cases h with
      | element hv h => exact ⟨_, hv, h⟩
  | .obj fs => by
    rw [walk, mem_walkFields s fs]
    constructor
    · rintro ⟨k, v, hv, h⟩
      exact .field hv h
    · intro h
      cases h with
      | field hv h => exact ⟨_, _, hv, h⟩
  | .undefined => iff_of_false (by simp [walk]) (by intro h; cases h)
  | .null => iff_of_false (by simp [walk]) (by intro h; cases h)
  | .bigint _ => iff_of_false (by simp [walk]) (by intro h; cases h)
  | .function => iff_of_false (by simp [walk]) (by intro h; cases h)
  | .symbol => iff_of_false (by simp [walk]) (by intro h; cases h)

theorem mem_walkAll (s : JsString) : ∀ es : List JsValue, s ∈ walkAll es ↔ ∃ v ∈ es, Leaf s v
  | [] => by simp [walkAll]
  | v :: vs => by
    rw [walkAll, List.mem_append, mem_walk s v, mem_walkAll s vs, List.exists_mem_cons_iff]

theorem mem_walkFields (s : JsString) : ∀ fs : Fields, s ∈ walkFields fs ↔ ∃ k v, (k, v) ∈ fs ∧ Leaf s v
  | [] => by simp [walkFields]
  | (k, v) :: fs => by
    rw [walkFields, List.mem_append, mem_walk s v, mem_walkFields s fs]
    constructor
    · rintro (h | ⟨k', v', hmem, h⟩)
      · exact ⟨k, v, List.mem_cons_self, h⟩
      · exact ⟨k', v', List.mem_cons_of_mem _ hmem, h⟩
    · rintro ⟨k', v', hmem, h⟩
      rcases List.mem_cons.mp hmem with heq | hmem
      · cases heq
        exact .inl h
      · exact .inr ⟨k', v', hmem, h⟩
end

/-! ### Identifiers -/

section Matching

variable (toLowerCase : JsString → JsString)

/-- `p.match(/\d+/g)` -/
def portNumbers (p : JsString) : List JsString := (p.splitOnP fun c => !isDigitUnit c).filter (· ≠ [])

/-- The port numbers of an element of `ports` -/
def portIdentifiers : JsValue → List JsString
  | .str p => portNumbers p
  | _ => []

def nameIdentifiers (entity : JsValue) : List JsString :=
  if textOf (js "name") entity ≠ [] then [toLowerCase (textOf (js "name") entity)] else []

def hostIdentifiers (entity : JsValue) : List JsString :=
  match attributeOf (js "host") entity with
  | .str host => if host ≠ [] then [toLowerCase host] else []
  | _ => []

def allPortIdentifiers (entity : JsValue) : List JsString :=
  match attributeOf (js "ports") entity with
  | .arr ports => ports.flatMap portIdentifiers
  | _ => []

/-- The elements of the set -/
def entityIdentifiers (entity : JsValue) : List JsString :=
  nameIdentifiers toLowerCase entity ++ hostIdentifiers toLowerCase entity ++ allPortIdentifiers entity

/-- What an entity goes by: its name and its host, in small letters, and the digits in its ports that no other
digit stands next to. -/
inductive Identifies (entity : JsValue) : JsString → Prop
  | name (h : textOf (js "name") entity ≠ []) : Identifies entity (toLowerCase (textOf (js "name") entity))
  | host {host : JsString} (h : attributeOf (js "host") entity = .str host) (hne : host ≠ []) :
    Identifies entity (toLowerCase host)
  | port {ports : List JsValue} {p digits : JsString} (h : attributeOf (js "ports") entity = .arr ports)
    (hp : .str p ∈ ports) (hdigits : digits ≠ [] ∧ ∀ c ∈ digits, isDigitUnit c = true)
    (hplace : Delimited (fun c => !isDigitUnit c) digits p) : Identifies entity digits

variable {toLowerCase} {entity : JsValue} {ident : JsString}

theorem mem_portNumbers {p digits : JsString} : digits ∈ portNumbers p ↔
    (digits ≠ [] ∧ ∀ c ∈ digits, isDigitUnit c = true) ∧ Delimited (fun c => !isDigitUnit c) digits p := by
  rw [portNumbers, List.mem_filter, mem_splitOnP_iff]
  simp only [Bool.not_eq_false', decide_eq_true_eq]
  constructor
  · rintro ⟨⟨hplace, hdigits⟩, hne⟩
    exact ⟨⟨hne, hdigits⟩, hplace⟩
  · rintro ⟨⟨hne, hdigits⟩, hplace⟩
    exact ⟨⟨hplace, hdigits⟩, hne⟩

theorem mem_entityIdentifiers :
    ident ∈ entityIdentifiers toLowerCase entity ↔ Identifies toLowerCase entity ident := by
  rw [entityIdentifiers, List.mem_append, List.mem_append]
  constructor
  · rintro ((h | h) | h)
    · rw [nameIdentifiers] at h
      split_ifs at h with hne
      · rw [List.mem_singleton.mp h]
        exact .name hne
      · cases h
    · rw [hostIdentifiers] at h
      cases hhost : attributeOf (js "host") entity with
      | str host =>
        simp only [hhost] at h
        split_ifs at h with hne
        · rw [List.mem_singleton.mp h]
          exact .host hhost hne
        · cases h
      | _ =>
        simp only [hhost] at h
        cases h
    · rw [allPortIdentifiers] at h
      cases hports : attributeOf (js "ports") entity with
      | arr ports =>
        simp only [hports] at h
        obtain ⟨element, helement, hident⟩ := List.mem_flatMap.mp h
        cases element with
        | str p =>
          obtain ⟨hdigits, hplace⟩ := mem_portNumbers.mp hident
          exact .port hports helement hdigits hplace
        | _ => cases hident
      | _ =>
        simp only [hports] at h
        cases h
  · intro h
    cases h with
    | name hne =>
      left
      left
      rw [nameIdentifiers, if_pos hne]
      exact List.mem_singleton_self _
    | host hhost hne =>
      left
      right
      simp only [hostIdentifiers, hhost, if_pos hne, List.mem_singleton]
    | port hports hp hdigits hplace =>
      right
      simp only [allPortIdentifiers, hports]
      exact List.mem_flatMap.mpr ⟨_, hp, mem_portNumbers.mpr ⟨hdigits, hplace⟩⟩

/-! ### Matches -/

/-- `[:/=>\-\s]` -/
def isPortBound (c : CodeUnit) : Bool :=
  c = 0x3A || c = 0x2F || c = 0x3D || c = 0x3E || c = 0x2D || isWhiteSpace c

/-- `/^\d+$/` -/
def isNumeric (s : JsString) : Bool := s ≠ [] && s.all isDigitUnit

variable (toLowerCase)

def candidateMatches (attrValue candidate : JsString) : Bool :=
  if candidate.length < 4 then false
  else if isNumeric (toLowerCase candidate) then hasDelimited isPortBound (toLowerCase candidate) attrValue
  else includes (toLowerCase candidate) (toLowerCase attrValue)

/-- The identifier is long enough and the text mentions it: a number on its own, any other one within it. -/
structure Mentions (attrValue candidate : JsString) : Prop where
  long : 4 ≤ candidate.length
  number : isNumeric (toLowerCase candidate) = true → Delimited isPortBound (toLowerCase candidate) attrValue
  word : isNumeric (toLowerCase candidate) = false → toLowerCase candidate <:+: toLowerCase attrValue

variable {toLowerCase}

theorem candidateMatches_iff {attrValue candidate : JsString} :
    candidateMatches toLowerCase attrValue candidate = true ↔ Mentions toLowerCase attrValue candidate := by
  rw [candidateMatches]
  split_ifs with hshort hnumeric
  · exact iff_of_false not_false fun h => absurd h.long (by omega)
  · rw [hasDelimited_iff]
    constructor
    · intro h
      exact ⟨by omega, fun _ => h, fun hword => absurd (hnumeric.symm.trans hword) Bool.noConfusion⟩
    · intro h
      exact h.number hnumeric
  · have hword : isNumeric (toLowerCase candidate) = false := Bool.eq_false_iff.mpr hnumeric
    rw [includes, decide_eq_true_iff]
    constructor
    · intro h
      exact ⟨by omega, fun hnumber => absurd hnumber hnumeric, fun _ => h⟩
    · intro h
      exact h.word hword

end Matching

/-! ### The derivation -/

def dependencySources (doc : GraphDocument) : List JsValue :=
  entitiesByKind (js "service") doc ++ entitiesByKind (js "container") doc

def dependencyTargets (doc : GraphDocument) : List JsValue :=
  dependencySources doc ++ entitiesByKind (js "datastore") doc

def entityId (entity : JsValue) : JsString := textOf (js "id") entity

def dependencyEdgeId (source target : JsString) : JsString := js "depends-on:" ++ source ++ js ":" ++ target

def dependencyEdge (now source target : JsString) : Fields :=
  [(js "id", .str (dependencyEdgeId source target)), (js "from", .str source), (js "to", .str target),
    (js "type", .str (js "depends-on")), (js "attributes", .obj [(js "derived", .bool true)]),
    (js "discovered_at", .str now), (js "last_seen", .str now), (js "status", .str (js "active"))]

structure DepEdgesResult where
  edges : List Fields
  sourcesInspected : ℕ
  edgesDerived : ℕ

/-- The edges that have been found, and their ids -/
structure Derivation where
  edges : List Fields
  emitted : List JsString

section Derivation

variable (toLowerCase : JsString → JsString) (now : JsString)

/-- The map from the ids of the targets to their identifiers; an id that is not in it has none. -/
def targetIdentifiers (targets : List JsValue) : JsString → List JsString :=
  targets.foldl (fun known t => Function.update known (entityId t) (entityIdentifiers toLowerCase t)) fun _ => []

def anyMatches (attrStrings idents : List JsString) : Bool :=
  attrStrings.any fun attrVal => idents.any fun ident => candidateMatches toLowerCase attrVal ident

/-- The inner loop, at one target -/
def visitTarget (identifiers : JsString → List JsString) (source : JsValue) (attrStrings : List JsString)
    (d : Derivation) (target : JsValue) : Derivation :=
  if entityId target = entityId source then d
  else if dependencyEdgeId (entityId source) (entityId target) ∈ d.emitted then d
  else if anyMatches toLowerCase attrStrings (identifiers (entityId target)) then
    ⟨d.edges ++ [dependencyEdge now (entityId source) (entityId target)],
      dependencyEdgeId (entityId source) (entityId target) :: d.emitted⟩
  else d

/-- The outer loop, at one source -/
def visitSource (identifiers : JsString → List JsString) (targets : List JsValue) (d : Derivation)
    (source : JsValue) : Derivation :=
  targets.foldl (visitTarget toLowerCase now identifiers source (collectAttributeStrings source)) d

def deriveEdges (doc : GraphDocument) : DepEdgesResult :=
  let sources := dependencySources doc
  let targets := dependencyTargets doc
  if sources = [] ∨ targets = [] then ⟨[], 0, 0⟩
  else
    let d := sources.foldl (visitSource toLowerCase now (targetIdentifiers toLowerCase targets) targets) ⟨[], []⟩
    ⟨d.edges, sources.length, d.edges.length⟩

end Derivation

/-! ### What depends on what -/

section Exact

variable (toLowerCase : JsString → JsString)

/-- Some text in the attributes of the source mentions something that the target goes by. -/
def RefersTo (source target : JsValue) : Prop :=
  ∃ attrValue ident, Leaf attrValue (property (js "attributes") source) ∧
    Identifies toLowerCase target ident ∧ Mentions toLowerCase attrValue ident

/-- There are a source and a target of these ids, which are distinct, and the one refers to the other. -/
def DependsOn (doc : GraphDocument) (s t : JsString) : Prop :=
  s ≠ t ∧ ∃ source ∈ dependencySources doc, ∃ target ∈ dependencyTargets doc,
    entityId source = s ∧ entityId target = t ∧ RefersTo toLowerCase source target

/-- No two pairs of entities have one edge id. -/
def EdgeIdsApart (doc : GraphDocument) : Prop :=
  ∀ s ∈ doc.entities, ∀ t ∈ doc.entities, ∀ s' ∈ doc.entities, ∀ t' ∈ doc.entities,
    dependencyEdgeId (entityId s) (entityId t) = dependencyEdgeId (entityId s') (entityId t') →
      entityId s = entityId s' ∧ entityId t = entityId t'

/-- The edge leads from the one to the other. -/
def leads (s t : JsString) (edge : Fields) : Bool :=
  equalsText s (getOwn (js "from") edge) && equalsText t (getOwn (js "to") edge)

/-- The edges that are derived are those between entities that depend on each other, one for each pair; once
they have been upserted, they are derived again, with the time of then. -/
structure DerivesDependencies (isDateTime : JsString → Bool) (doc : GraphDocument) (now : JsString) : Prop where
  sound : ∀ edge ∈ (deriveEdges toLowerCase now doc).edges,
    ∃ s t, DependsOn toLowerCase doc s t ∧ edge = dependencyEdge now s t
  complete : ∀ s t, DependsOn toLowerCase doc s t →
    (deriveEdges toLowerCase now doc).edges.countP (leads s t) = 1
  loopless : ∀ edge ∈ (deriveEdges toLowerCase now doc).edges, getOwn (js "from") edge ≠ getOwn (js "to") edge
  stable : ∀ later, (deriveEdges toLowerCase later (afterCalls isDateTime
    ((deriveEdges toLowerCase now doc).edges.map (UpsertCall.mk .edges)) doc)).edges =
      (deriveEdges toLowerCase now doc).edges.map fun edge =>
        setOwn (js "last_seen") (.str later) (setOwn (js "discovered_at") (.str later) edge)

variable {toLowerCase} {doc : GraphDocument} {isDateTime : JsString → Bool} {now : JsString}

/-- The pairs that the loops go through -/
def visitedPairs (doc : GraphDocument) : List (JsValue × JsValue) :=
  dependencySources doc ×ˢ dependencyTargets doc

def pairEdgeId (p : JsValue × JsValue) : JsString := dependencyEdgeId (entityId p.1) (entityId p.2)

def pairEdge (now : JsString) (p : JsValue × JsValue) : Fields := dependencyEdge now (entityId p.1) (entityId p.2)

/-- The pair is one for which an edge is derived. -/
def isDependency (toLowerCase : JsString → JsString) (p : JsValue × JsValue) : Bool :=
  entityId p.2 ≠ entityId p.1 &&
    anyMatches toLowerCase (collectAttributeStrings p.1) (entityIdentifiers toLowerCase p.2)

theorem anyMatches_iff {source target : JsValue} :
    anyMatches toLowerCase (collectAttributeStrings source) (entityIdentifiers toLowerCase target) = true ↔
      RefersTo toLowerCase source target := by
  simp only [anyMatches, List.any_eq_true, candidateMatches_iff, collectAttributeStrings, mem_walk,
    mem_entityIdentifiers, RefersTo]
  constructor
  · rintro ⟨attrValue, hleaf, ident, hident, hmentions⟩
    exact ⟨attrValue, ident, hleaf, hident, hmentions⟩
  · rintro ⟨attrValue, ident, hleaf, hident, hmentions⟩
    exact ⟨attrValue, hleaf, ident, hident, hmentions⟩

/-! ### Entities that are found twice -/

theorem entityIds_nodup (hvalid : ValidGraph isDateTime doc) (hunique : UniqueIds doc.entities) :
    (doc.entities.map entityId).Nodup := by
  have hsome : doc.entities.map idOf = (doc.entities.map entityId).map some := by
    rw [List.map_map]
    exact List.map_congr_left fun e he => idOf_text hvalid he
  have hnodup : (doc.entities.map idOf).Nodup := hunique
  rw [hsome] at hnodup
  exact hnodup.of_map some

theorem mem_sources {e : JsValue} (h : e ∈ dependencySources doc) : e ∈ doc.entities := by
  rw [dependencySources, List.mem_append, mem_entitiesByKind, mem_entitiesByKind] at h
  rcases h with h | h
  · exact h.1
  · exact h.1

theorem mem_targets {e : JsValue} (h : e ∈ dependencyTargets doc) : e ∈ doc.entities := by
  rw [dependencyTargets, List.mem_append, mem_entitiesByKind] at h
  rcases h with h | h
  · exact mem_sources h
  · exact h.1

theorem byKind_disjoint {kind kind' : JsString} (h : kind ≠ kind') :
    (entitiesByKind kind doc).Disjoint (entitiesByKind kind' doc) := by
  intro e he he'
  have hkind := (mem_entitiesByKind.mp he).2
  rw [(mem_entitiesByKind.mp he').2] at hkind
  exact h (JsValue.str.inj hkind).symm

theorem sources_nodup (h : doc.entities.Nodup) : (dependencySources doc).Nodup := by
  apply List.Nodup.append (h.filter _) (h.filter _)
  exact byKind_disjoint (by decide)

theorem targets_nodup (h : doc.entities.Nodup) : (dependencyTargets doc).Nodup := by
  apply List.Nodup.append (sources_nodup h) (h.filter _)
  rw [dependencySources, List.disjoint_append_left]
  exact ⟨byKind_disjoint (by decide), byKind_disjoint (by decide)⟩

theorem targetIdentifiers_eq {targets : List JsValue} (hids : (targets.map entityId).Nodup) {t : JsValue}
    (ht : t ∈ targets) :
    targetIdentifiers toLowerCase targets (entityId t) = entityIdentifiers toLowerCase t := by
  -- a later target overwrites the identifiers of an earlier one only under the same id
  have hother (known : JsString → List JsString) (targets : List JsValue) (id : JsString)
      (hid : id ∉ targets.map entityId) : targets.foldl (fun known t =>
        Function.update known (entityId t) (entityIdentifiers toLowerCase t)) known id = known id := by
    induction targets generalizing known with
    | nil => rfl
    | cons u us ih =>
      rw [List.map_cons, List.mem_cons, not_or] at hid
      rw [List.foldl_cons, ih _ hid.2, Function.update_of_ne hid.1]
  have hlast (known : JsString → List JsString) : targets.foldl (fun known t =>
      Function.update known (entityId t) (entityIdentifiers toLowerCase t)) known (entityId t) =
        entityIdentifiers toLowerCase t := by
    induction targets generalizing known with
    | nil => cases ht
    | cons u us ih =>
      rw [List.map_cons, List.nodup_cons] at hids
      rw [List.foldl_cons]
      rcases List.mem_cons.mp ht with rfl | ht
      · rw [hother _ _ _ hids.1, Function.update_self]
      · exact ih hids.2 ht _
  exact hlast _

/-! ### The loops -/

/-- While no edge id comes twice, the edges are those of the pairs that match. -/
theorem visitPairs_edges (toLowerCase : JsString → JsString) (now : JsString)
    (identifiers : JsString → List JsString) (pairs : List (JsValue × JsValue))
    (d : Derivation) (hids : (pairs.map pairEdgeId).Nodup) (hnew : ∀ p ∈ pairs, pairEdgeId p ∉ d.emitted) :
    (pairs.foldl (fun d p =>
      visitTarget toLowerCase now identifiers p.1 (collectAttributeStrings p.1) d p.2) d).edges =
        d.edges ++ (pairs.filter fun p => entityId p.2 ≠ entityId p.1 &&
          anyMatches toLowerCase (collectAttributeStrings p.1) (identifiers (entityId p.2))).map (pairEdge now) := by
  induction pairs generalizing d with
  | nil => exact (List.append_nil _).symm
  | cons p ps ih =>
    rw [List.map_cons, List.nodup_cons] at hids
    have hfirst : dependencyEdgeId (entityId p.1) (entityId p.2) ∉ d.emitted := hnew p List.mem_cons_self
    have hrest : ∀ q ∈ ps, pairEdgeId q ∉ d.emitted := fun q hq => hnew q (List.mem_cons_of_mem _ hq)
    rw [List.foldl_cons, List.filter_cons, visitTarget, if_neg hfirst]
    -- an entity is not compared with itself, as the loop goes on to the next target
    by_cases hself : entityId p.2 = entityId p.1
    · simp only [hself, if_true, ne_eq, not_true_eq_false, decide_false, Bool.false_and, Bool.false_eq_true, if_false]
      exact ih d hids.2 hrest
    · simp only [hself, if_false, ne_eq, not_false_eq_true, decide_true, Bool.true_and]
      split_ifs with hmatch
      -- the new id is among those that have been emitted, and no later pair has it
      · rw [ih _ hids.2]
        · simp [pairEdge]
        · intro q hq hmem
          rcases List.mem_cons.mp hmem with hsame | hmem
          · exact hids.1 (List.mem_map.mpr ⟨q, hq, hsame⟩)
          · exact hrest q hq hmem
      · exact ih d hids.2 hrest

theorem visitSources_eq {identifiers : JsString → List JsString} (sources targets : List JsValue) (d : Derivation) :
    sources.foldl (visitSource toLowerCase now identifiers targets) d =
      (sources ×ˢ targets).foldl (fun d p =>
        visitTarget toLowerCase now identifiers p.1 (collectAttributeStrings p.1) d p.2) d := by
  induction sources generalizing d with
  | nil => rfl
  | cons source sources ih =>
    rw [List.foldl_cons, ih, List.product_cons, List.foldl_append, List.foldl_map]
    rfl

theorem pairEdgeIds_nodup (hvalid : ValidGraph isDateTime doc) (hunique : UniqueIds doc.entities)
    (hapart : EdgeIdsApart doc) : ((visitedPairs doc).map pairEdgeId).Nodup := by
  have hids := entityIds_nodup hvalid hunique
  have hentities := hids.of_map entityId
  apply List.Nodup.map_on ?_ ((sources_nodup hentities).product (targets_nodup hentities))
  intro p hp q hq heq
  obtain ⟨hp1, hp2⟩ := List.mem_product.mp hp
  obtain ⟨hq1, hq2⟩ := List.mem_product.mp hq
  obtain ⟨h1, h2⟩ := hapart _ (mem_sources hp1) _ (mem_targets hp2) _ (mem_sources hq1) _ (mem_targets hq2) heq
  have hsource := List.inj_on_of_nodup_map hids (mem_sources hp1) (mem_sources hq1) h1
  have htarget := List.inj_on_of_nodup_map hids (mem_targets hp2) (mem_targets hq2) h2
  exact Prod.ext hsource htarget

/-- The edges are those of the pairs that depend on each other, in the order of the loops. -/
theorem deriveEdges_edges (hvalid : ValidGraph isDateTime doc) (hunique : UniqueIds doc.entities)
    (hapart : EdgeIdsApart doc) : (deriveEdges toLowerCase now doc).edges =
      ((visitedPairs doc).filter (isDependency toLowerCase)).map (pairEdge now) := by
  have hids := entityIds_nodup hvalid hunique
  have htargets : ((dependencyTargets doc).map entityId).Nodup := by
    apply List.Nodup.map_on ?_ (targets_nodup (hids.of_map entityId))
    intro t ht u hu heq
    exact List.inj_on_of_nodup_map hids (mem_targets ht) (mem_targets hu) heq
  rw [deriveEdges]
  split_ifs with hempty
  -- the early return, for a document without sources or targets
  · have hnone : visitedPairs doc = [] := by
      rw [visitedPairs]
      rcases hempty with hempty | hempty
      · rw [hempty, List.nil_product]
      · rw [hempty, List.product_nil]
    rw [hnone]
    rfl
  · have hloops := visitPairs_edges toLowerCase now (targetIdentifiers toLowerCase (dependencyTargets doc))
      (visitedPairs doc) ⟨[], []⟩ (pairEdgeIds_nodup hvalid hunique hapart) fun p _ => List.not_mem_nil
    dsimp only
    rw [visitSources_eq]
    refine hloops.trans ?_
    rw [List.nil_append]
    congr 1
    apply List.filter_congr
    intro p hp
    rw [isDependency, targetIdentifiers_eq htargets (List.mem_product.mp hp).2]

/-! ### Edges are exact and stable -/

theorem mem_dependencies {p : JsValue × JsValue} : p ∈ (visitedPairs doc).filter (isDependency toLowerCase) ↔
    (p.1 ∈ dependencySources doc ∧ p.2 ∈ dependencyTargets doc) ∧
      entityId p.1 ≠ entityId p.2 ∧ RefersTo toLowerCase p.1 p.2 := by
  rw [List.mem_filter, visitedPairs, List.mem_product, isDependency, Bool.and_eq_true, decide_eq_true_iff,
    anyMatches_iff, ne_comm]

theorem leads_pairEdge (s t : JsString) (p : JsValue × JsValue) :
    leads s t (pairEdge now p) = true ↔ (entityId p.1, entityId p.2) = (s, t) := by
  have hleads : leads s t (pairEdge now p) = (decide (entityId p.1 = s) && decide (entityId p.2 = t)) := rfl
  rw [hleads, Bool.and_eq_true, decide_eq_true_iff, decide_eq_true_iff, Prod.mk.injEq]

/-- The edges alone are written, and nothing is derived from these. -/
theorem entities_afterEdges (edges : List Fields) (doc : GraphDocument) :
    (afterCalls isDateTime (edges.map (UpsertCall.mk .edges)) doc).entities = doc.entities := by
  induction edges generalizing doc with
  | nil => rfl
  | cons edge edges ih =>
    rw [List.map_cons]
    have hstep : (((UpsertCall.mk .edges edge).run isDateTime doc).getD doc).entities = doc.entities := by
      cases hcall : (UpsertCall.mk .edges edge).run isDateTime doc with
      | none => rfl
      | some doc' =>
        obtain ⟨rfl, -⟩ := callGraph_eq_some.mp hcall
        rfl
    exact (ih _).trans hstep

theorem deriveEdges_congr {doc' : GraphDocument} (h : doc'.entities = doc.entities) :
    deriveEdges toLowerCase now doc' = deriveEdges toLowerCase now doc := by
  have hkind (kind : JsString) : entitiesByKind kind doc' = entitiesByKind kind doc := by
    rw [entitiesByKind, h, entitiesByKind]
  have hsources : dependencySources doc' = dependencySources doc := by
    rw [dependencySources, hkind, hkind, dependencySources]
  have htargets : dependencyTargets doc' = dependencyTargets doc := by
    rw [dependencyTargets, hsources, hkind, dependencyTargets]
  rw [deriveEdges, hsources, htargets, deriveEdges]

/-- There is one edge for each pair of entities of which the first refers to the second, and no other one. -/
theorem derivesDependencies (toLowerCase : JsString → JsString) (isDateTime : JsString → Bool)
    (doc : GraphDocument) (now : JsString) (hvalid : ValidGraph isDateTime doc)
    (hunique : UniqueIds doc.entities) (hapart : EdgeIdsApart doc) :
    DerivesDependencies toLowerCase isDateTime doc now where
  sound := by
    intro edge hedge
    rw [deriveEdges_edges hvalid hunique hapart] at hedge
    obtain ⟨p, hp, rfl⟩ := List.mem_map.mp hedge
    obtain ⟨⟨hsource, htarget⟩, hne, hrefers⟩ := mem_dependencies.mp hp
    exact ⟨_, _, ⟨hne, p.1, hsource, p.2, htarget, rfl, rfl, hrefers⟩, rfl⟩
  complete := by
    rintro s t ⟨hne, source, hsource, target, htarget, rfl, rfl, hrefers⟩
    have hmem : (source, target) ∈ (visitedPairs doc).filter (isDependency toLowerCase) :=
      mem_dependencies.mpr ⟨⟨hsource, htarget⟩, hne, hrefers⟩
    -- the edge ids are made of the two ids, so pairs of ids do not come twice either
    have hnodup : (((visitedPairs doc).filter (isDependency toLowerCase)).map
        fun p => (entityId p.1, entityId p.2)).Nodup := by
      have hall : (((visitedPairs doc).map fun p => (entityId p.1, entityId p.2)).map
          fun ids => dependencyEdgeId ids.1 ids.2).Nodup := by
        rw [List.map_map]
        exact pairEdgeIds_nodup hvalid hunique hapart
      exact (hall.of_map _).sublist (List.filter_sublist.map _)
    have hcount := List.count_eq_one_of_mem hnodup
      (List.mem_map_of_mem (f := fun p : JsValue × JsValue => (entityId p.1, entityId p.2)) hmem)
    rw [deriveEdges_edges hvalid hunique hapart, List.countP_map]
    rw [List.count, List.countP_map] at hcount
    refine Eq.trans (List.countP_congr fun p _ => ?_) hcount
    exact (leads_pairEdge _ _ p).trans beq_iff_eq.symm
  loopless := by
    intro edge hedge
    rw [deriveEdges_edges hvalid hunique hapart] at hedge
    obtain ⟨p, hp, rfl⟩ := List.mem_map.mp hedge
    intro h
    exact (mem_dependencies.mp hp).2.1 (JsValue.str.inj h)
  stable := by
    intro later
    -- the edges are derived from the entities, which upserting edges leaves as they are
    rw [deriveEdges_congr (entities_afterEdges _ doc), deriveEdges_edges hvalid hunique hapart,
      deriveEdges_edges hvalid hunique hapart, List.map_map]
    rfl

end Exact

/-! A service that is told the address of its database -/

def postgresEntity : JsValue :=
  .obj [(js "id", .str (js "service:db")), (js "kind", .str (js "service")), (js "name", .str (js "postgres")),
    (js "attributes", .obj [(js "ports", .arr [.str (js "*:5432->5432/tcp")])]), (js "source", .str (js "docker")),
    (js "discovered_at", .str (js "t")), (js "last_seen", .str (js "t")), (js "status", .str (js "active"))]

def webEntity : JsValue :=
  .obj [(js "id", .str (js "container:web")), (js "kind", .str (js "container")), (js "name", .str (js "web")),
    (js "attributes", .obj [(js "env", .arr [.str (js "db=postgres:5432")])]), (js "source", .str (js "docker")),
    (js "discovered_at", .str (js "t")), (js "last_seen", .str (js "t")), (js "status", .str (js "active"))]

def webGraph : GraphDocument := ⟨[postgresEntity, webEntity], []⟩

theorem derivesDependencies_web :
    DerivesDependencies (fun s => s) (fun _ => true) webGraph (js "t") ∧
      (deriveEdges (fun s => s) (js "t") webGraph).edgesDerived = 1 := by
  constructor
  · apply derivesDependencies
    · intro part
      cases part with
      | entities => decide +kernel
      | edges => simp [GraphPart.records, webGraph]
    · change List.Nodup _
      decide +kernel
    · unfold EdgeIdsApart
      decide +kernel
  · decide +kernel

end Homelab
