import Homelab.JsonShape

/-! Objects that are used as records: spreading one over another, defaults, and what a JSON schema
asks of them. -/
namespace Js

def JsValue.isDefined : JsValue → Bool
  | .undefined => false
  | _ => true

/-- `v ?? other` -/
def nullish (v other : JsValue) : JsValue :=
  match v with
  | .undefined => other
  | .null => other
  | v => v

/-- The own properties of a value that is spread. -/
def ownFields : JsValue → Fields
  | .obj fs => fs
  | _ => []

/-- `{ ...fs, ...gs }` -/
def spread (fs gs : Fields) : Fields :=
  (gs.map Prod.fst).foldl (fun acc k => setOwn k (getOwn k gs) acc) fs

theorem property_obj (k : JsString) (fs : Fields) : property k (.obj fs) = getOwn k fs := rfl

theorem getOwn_setOwn_ne {k l : JsString} (h : l ≠ k) (v : JsValue) (fs : Fields) :
    getOwn k (setOwn l v fs) = getOwn k fs := by
  induction fs with
  | nil =>
    change (if l = k then v else .undefined) = .undefined
    rw [if_neg h]
  | cons f fs ih =>
    obtain ⟨k', v'⟩ := f
    rw [setOwn]
    split_ifs with heq hbefore
    · rw [getOwn, getOwn, if_neg h, if_neg (heq ▸ h)]
    · rw [getOwn, if_neg h]
    · rw [getOwn, getOwn, ih]

theorem getOwn_of_not_mem {k : JsString} {fs : Fields} (h : k ∉ fs.map Prod.fst) :
    getOwn k fs = .undefined := by
  induction fs with
  | nil => rfl
  | cons f fs ih =>
    rw [List.map_cons, List.mem_cons, not_or] at h
    rw [getOwn, if_neg (Ne.symm h.1)]
    exact ih h.2

/-- A property that is set for each of the keys is found as it was set last. -/
theorem getOwn_foldl_setOwn (k : JsString) (gs : Fields) (keys : List JsString) (fs : Fields) :
    getOwn k (keys.foldl (fun acc l => setOwn l (getOwn l gs) acc) fs) =
      if k ∈ keys then getOwn k gs else getOwn k fs := by
  induction keys generalizing fs with
  | nil => rw [List.foldl_nil, if_neg List.not_mem_nil]
  | cons l keys ih =>
    rw [List.foldl_cons, ih]
    by_cases hmem : k ∈ keys
    · rw [if_pos hmem, if_pos (List.mem_cons_of_mem _ hmem)]
    · rw [if_neg hmem]
      by_cases hl : k = l
      · rw [hl, getOwn_setOwn, if_pos (List.mem_cons_self ..)]
      · rw [getOwn_setOwn_ne (Ne.symm hl), if_neg]
        rw [List.mem_cons, not_or]
        exact ⟨hl, hmem⟩

/-- What is spread over the fields wins where it has the property. -/
theorem getOwn_spread (k : JsString) (fs gs : Fields) :
    getOwn k (spread fs gs) = if k ∈ gs.map Prod.fst then getOwn k gs else getOwn k fs :=
  getOwn_foldl_setOwn k gs (gs.map Prod.fst) fs

theorem getOwn_spread_of_defined {k : JsString} {fs gs : Fields} (h : getOwn k gs ≠ .undefined) :
    getOwn k (spread fs gs) = getOwn k gs := by
  rw [getOwn_spread, if_pos]
  by_contra hmem
  exact h (getOwn_of_not_mem hmem)

/-- What is spread over the fields brings no other keys than its own. -/
theorem keys_spread {k : JsString} {fs gs : Fields} (h : k ∈ (spread fs gs).map Prod.fst) :
    k ∈ gs.map Prod.fst ∨ k ∈ fs.map Prod.fst := by
  have key (keys : List JsString) (acc : Fields)
      (h : k ∈ (keys.foldl (fun acc l => setOwn l (getOwn l gs) acc) acc).map Prod.fst) :
      k ∈ keys ∨ k ∈ acc.map Prod.fst := by
    induction keys generalizing acc with
    | nil => exact .inr h
    | cons l keys ih =>
      rcases ih _ h with hmem | hmem
      · exact .inl (List.mem_cons_of_mem _ hmem)
      · rcases keys_setOwn hmem with rfl | hmem
        · exact .inl (List.mem_cons_self ..)
        · exact .inr hmem
  exact key (gs.map Prod.fst) fs h

/-- All keys are there, of the fields and of what is spread over them. -/
theorem mem_keys_of_spread {k : JsString} {fs gs : Fields}
    (h : k ∈ gs.map Prod.fst ∨ k ∈ fs.map Prod.fst) : k ∈ (spread fs gs).map Prod.fst := by
  have key (keys : List JsString) (acc : Fields) (h : k ∈ keys ∨ k ∈ acc.map Prod.fst) :
      k ∈ (keys.foldl (fun acc l => setOwn l (getOwn l gs) acc) acc).map Prod.fst := by
    induction keys generalizing acc with
    | nil => exact h.resolve_left List.not_mem_nil
    | cons l keys ih =>
      apply ih
      rcases h with h | h
      · rcases List.mem_cons.mp h with rfl | h
        · exact .inr (mem_keys_setOwn (.inl rfl))
        · exact .inl h
      · exact .inr (mem_keys_setOwn (.inr h))
  exact key (gs.map Prod.fst) fs h

theorem mem_keys_spread {k : JsString} (fs : Fields) {gs : Fields} (h : k ∈ gs.map Prod.fst) :
    k ∈ (spread fs gs).map Prod.fst := mem_keys_of_spread (.inl h)

/-! ### JSON schemas -/

/-- What a schema accepts. -/
abbrev Schema := JsValue → Bool

namespace Schema

/-- `type: string`, and a condition on the text -/
def string (accepts : JsString → Bool) : Schema
  | .str s => accepts s
  | _ => false

/-- The natural number that a number is. -/
def natural? : JsNumber → Option ℕ
  | .fin d => if !d.neg && decide (0 ≤ d.exp) then some (d.digits*10^d.exp.toNat) else none
  | _ => none

/-- `type: integer`, between two natural numbers -/
def naturalBetween (low high : ℕ) : Schema
  | .num x => (natural? x).any fun n => low ≤ n && n ≤ high
  | _ => false

def array (item : Schema) : Schema
  | .arr vs => vs.all item
  | _ => false

/-- `type: object` with `required`, `properties` and `additionalProperties`. A property that is
`undefined` counts as missing, except that its key must be one of the properties. -/
def object (required : List JsString) (properties : List (JsString × Schema)) (additional : Bool) :
    Schema
  | .obj fs => (required.all fun k => (getOwn k fs).isDefined) &&
      (fs.all fun f => additional || properties.any fun prop => prop.1 = f.1) &&
      properties.all fun prop => !(getOwn prop.1 fs).isDefined || prop.2 (getOwn prop.1 fs)
  | _ => false

/-- A value that the schema of an object accepts has the properties that it requires, and they
are as their schemas say. -/
theorem property_of_object {required : List JsString} {properties : List (JsString × Schema)}
    {additional : Bool} {v : JsValue} (h : object required properties additional v = true)
    {k : JsString} (hk : k ∈ required) {check : Schema} (hcheck : (k, check) ∈ properties) :
    check (property k v) = true := by
  cases v with
  | obj fs =>
    rw [object, Bool.and_eq_true, Bool.and_eq_true] at h
    obtain ⟨⟨hrequired, _⟩, hproperties⟩ := h
    have hdefined := List.all_eq_true.mp hrequired k hk
    have hchecked := List.all_eq_true.mp hproperties (k, check) hcheck
    rw [hdefined] at hchecked
    exact hchecked
  | _ => cases h

/-- An object that a schema accepts keeps to it when one of its properties changes to a value that is
defined and that the schema of the property accepts. -/
theorem object_update {required : List JsString} {properties : List (JsString × Schema)}
    {additional : Bool} {fs gs : Fields} (h : object required properties additional (.obj fs) = true)
    {k : JsString} (hdefined : (getOwn k gs).isDefined = true)
    (hchecked : ∀ check, (k, check) ∈ properties → check (getOwn k gs) = true)
    (hk : ∃ prop ∈ properties, prop.1 = k) (hother : ∀ l, l ≠ k → getOwn l gs = getOwn l fs)
    (hkeys : ∀ l ∈ gs.map Prod.fst, l = k ∨ l ∈ fs.map Prod.fst) :
    object required properties additional (.obj gs) = true := by
  rw [object, Bool.and_eq_true, Bool.and_eq_true] at h ⊢
  obtain ⟨⟨hrequired, hadditional⟩, hproperties⟩ := h
  rw [List.all_eq_true] at hrequired hadditional hproperties
  refine ⟨⟨?_, ?_⟩, ?_⟩
  · rw [List.all_eq_true]
    intro l hl
    by_cases hlk : l = k
    · rw [hlk]
      exact hdefined
    · rw [hother l hlk]
      exact hrequired l hl
  · rw [List.all_eq_true]
    intro f hf
    rcases hkeys f.1 (List.mem_map_of_mem hf) with hfk | hmem
    · obtain ⟨prop, hprop, hname⟩ := hk
      have hany : (properties.any fun prop => prop.1 = f.1) = true :=
        List.any_eq_true.mpr ⟨prop, hprop, decide_eq_true (hname.trans hfk.symm)⟩
      rw [hany]
      exact Bool.or_true _
    · obtain ⟨g, hg, hname⟩ := List.mem_map.mp hmem
      rw [← hname]
      exact hadditional g hg
  · rw [List.all_eq_true]
    intro prop hprop
    by_cases hname : prop.1 = k
    · subst hname
      rw [hchecked prop.2 hprop]
      exact Bool.or_true _
    · rw [hother prop.1 hname]
      exact hproperties prop hprop

/-- What is spread over good fields, if it has all keys that are required, is accepted just when it is
accepted by itself. -/
theorem object_spread {required : List JsString} {properties : List (JsString × Schema)}
    {additional : Bool} {fs gs : Fields} (hkeys : ∀ k ∈ required, k ∈ gs.map Prod.fst)
    (hadditional : ∀ f ∈ fs, (additional || properties.any fun prop => prop.1 = f.1) = true)
    (hproperties : ∀ prop ∈ properties, (!(getOwn prop.1 fs).isDefined || prop.2 (getOwn prop.1 fs)) = true) :
    object required properties additional (.obj (spread fs gs)) =
      object required properties additional (.obj gs) := by
  rw [Bool.eq_iff_iff, object, object, Bool.and_eq_true, Bool.and_eq_true, Bool.and_eq_true, Bool.and_eq_true,
    List.all_eq_true, List.all_eq_true, List.all_eq_true, List.all_eq_true, List.all_eq_true,
    List.all_eq_true]
  have hrequired {k : JsString} (hk : k ∈ required) : getOwn k (spread fs gs) = getOwn k gs := by
    rw [getOwn_spread, if_pos (hkeys k hk)]
  constructor
  · rintro ⟨⟨hdefined, hnamed⟩, hchecked⟩
    refine ⟨⟨?_, ?_⟩, ?_⟩
    · intro k hk
      rw [← hrequired hk]
      exact hdefined k hk
    · intro f hf
      obtain ⟨g, hg, hname⟩ := List.mem_map.mp (mem_keys_spread fs (List.mem_map_of_mem (f := Prod.fst) hf))
      rw [← hname]
      exact hnamed g hg
    · intro prop hprop
      by_cases hmem : prop.1 ∈ gs.map Prod.fst
      · have hsame : getOwn prop.1 (spread fs gs) = getOwn prop.1 gs := by
          rw [getOwn_spread, if_pos hmem]
        rw [← hsame]
        exact hchecked prop hprop
      · rw [getOwn_of_not_mem hmem]
        rfl
  · rintro ⟨⟨hdefined, hnamed⟩, hchecked⟩
    refine ⟨⟨?_, ?_⟩, ?_⟩
    · intro k hk
      rw [hrequired hk]
      exact hdefined k hk
    · intro f hf
      rcases keys_spread (List.mem_map_of_mem (f := Prod.fst) hf) with hmem | hmem
      · obtain ⟨g, hg, hname⟩ := List.mem_map.mp hmem
        rw [← hname]
        exact hnamed g hg
      · obtain ⟨g, hg, hname⟩ := List.mem_map.mp hmem
        rw [← hname]
        exact hadditional g hg
    · intro prop hprop
      rw [getOwn_spread]
      split_ifs with hmem
      · exact hchecked prop hprop
      · exact hproperties prop hprop

end Schema

end Js
