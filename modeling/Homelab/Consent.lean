import Homelab.Cidr
import Homelab.Host

/-! The consent file and `ConsentManager.checkConsent`. The entries of the file are
not validated when it is loaded, so an entry is any value that YAML can name; a
timestamp stands for the text that it is coerced to. -/
namespace Homelab
open Js

/-- The clock, the network fingerprint and `Date.parse`, with `none` for `NaN`. -/
structure ConsentRuntime where
  now : ℤ
  networkFingerprint : JsString
  dateParse : JsString → Option ℤ

/-- `loadFile`, given what reading the file and `yaml.load` answer. -/
def loadConsents (yamlLoad : JsString → Except JsString JsValue)
    (raw : Except ErrnoException JsString) : Except JsString (List JsValue) :=
  match raw with
  | .error e => if e.code = some (js "ENOENT") then .ok [] else .error e.message
  | .ok text => do
    let parsed ← yamlLoad text
    match parsed with
    | .null => .ok []
    | .undefined => .ok []
    | _ =>
      if parsed.typeof = js "object" then
        match property (js "version") parsed with
        | .str version =>
          if version = js "1.0" then
            match property (js "consents") parsed with
            | .arr consents => .ok consents
            | _ => .error (js "invalid consent file: `consents` must be an array")
          else .error (js "invalid consent file: unsupported version " ++ version)
        | version => .error (js "invalid consent file: unsupported version " ++ version.coerce)
      else .error (js "invalid consent file: expected object, got " ++ parsed.typeof)

/-- The tests that `checkConsent` makes of an entry besides its CIDR. -/
def isCurrent (rt : ConsentRuntime) (entry : JsValue) : Bool :=
  match rt.dateParse (property (js "expires_at") entry).coerce with
  | none => false
  | some expires =>
    decide (rt.now < expires) &&
      (match property (js "network_fingerprint") entry with
      | .undefined => true
      | .str stored => stored == rt.networkFingerprint
      | _ => false)

def entryCidr (entry : JsValue) : JsString := (property (js "cidr") entry).coerce

/-- The loop of `checkConsent` over the entries. -/
def findConsent (rt : ConsentRuntime) (ip : JsString) : List JsValue →
    Except JsString (Option JsValue)
  | [] => .ok none
  | entry :: rest => do
    let cidr ← readProperty entry (js "cidr")
    if ipInCidr ip cidr.coerce && isCurrent rt entry then .ok (some entry)
    else findConsent rt ip rest

def checkConsent (rt : ConsentRuntime) (file : Except JsString (List JsValue)) (ip : JsString) :
    Except JsString (Option JsValue) := do
  let consents ← file
  findConsent rt ip consents

/-- The entry that `checkConsent` answers is current and contains the address. -/
theorem findConsent_some {rt : ConsentRuntime} {ip : JsString} {entries : List JsValue}
    {entry : JsValue} (h : findConsent rt ip entries = .ok (some entry)) :
    entry ∈ entries ∧ isCurrent rt entry = true ∧ ipInCidr ip (entryCidr entry) = true := by
  induction entries with
  | nil => cases h
  | cons e rest ih =>
    simp only [findConsent, readProperty] at h
    cases hc : e.get? (js "cidr") with
    | none =>
      rw [hc] at h
      cases h
    | some cidr =>
      rw [hc] at h
      change (if _ then _ else _) = _ at h
      have hcidr : entryCidr e = cidr.coerce := by
        rw [entryCidr, property, hc]
        rfl
      split_ifs at h with hcond
      · cases h
        rw [Bool.and_eq_true] at hcond
        exact ⟨List.mem_cons_self .., hcond.2, hcidr ▸ hcond.1⟩
      · obtain ⟨hmem, hrest⟩ := ih h
        exact ⟨List.mem_cons_of_mem _ hmem, hrest⟩

theorem checkConsent_some {rt : ConsentRuntime} {file : Except JsString (List JsValue)}
    {ip : JsString} {entry : JsValue} (h : checkConsent rt file ip = .ok (some entry)) :
    ∃ entries, file = .ok entries ∧ entry ∈ entries ∧ isCurrent rt entry = true ∧
      ipInCidr ip (entryCidr entry) = true := by
  cases file with
  | error message => cases h
  | ok entries => exact ⟨entries, rfl, findConsent_some h⟩

/-- The blocks of the entries that are current. -/
def currentBlocks (rt : ConsentRuntime) (entries : List JsValue) : List Net.Block :=
  (entries.filter (isCurrent rt)).filterMap fun entry =>
    (parseCidr (entryCidr entry)).map fun p => cidrBlock p.1 p.2

/-- Some entry that is current contains the address. -/
def Consented (rt : ConsentRuntime) (entries : List JsValue) (ip : JsString) : Prop :=
  ∃ entry ∈ entries, isCurrent rt entry = true ∧ ipInCidr ip (entryCidr entry) = true

theorem consented_iff (rt : ConsentRuntime) (entries : List JsValue) (n : BitVec 32) :
    Consented rt entries (intToIp n) ↔ ∃ b ∈ currentBlocks rt entries, b.Mem n.toNat := by
  constructor
  · rintro ⟨entry, hmem, hcur, hin⟩
    obtain ⟨network, len, hp, hblock⟩ := (ipInCidr_intToIp n _).mp hin
    refine ⟨cidrBlock network len, ?_, hblock⟩
    apply List.mem_filterMap.mpr
    exact ⟨entry, List.mem_filter.mpr ⟨hmem, hcur⟩, by rw [hp]; rfl⟩
  · rintro ⟨b, hb, hblock⟩
    obtain ⟨entry, hentry, hmap⟩ := List.mem_filterMap.mp hb
    obtain ⟨hmem, hcur⟩ := List.mem_filter.mp hentry
    obtain ⟨⟨network, len⟩, hp, rfl⟩ := Option.map_eq_some_iff.mp hmap
    exact ⟨entry, hmem, hcur, (ipInCidr_intToIp n _).mpr ⟨network, len, hp, hblock⟩⟩

end Homelab
