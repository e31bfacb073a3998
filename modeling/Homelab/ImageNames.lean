import Homelab.RoleCatalog
import Mathlib.Data.List.TakeWhile

/-! Which part of the reference of an image the roles depend on. A colon stands before a port as well as before
a tag. -/
namespace Homelab
open Js

/-! ### Image references -/

/-- The host of a registry, and the port, if one is given -/
structure ImageRegistry where
  host : JsString
  port : Option JsString

def ImageRegistry.text (r : ImageRegistry) : JsString := r.host ++ (r.port.map (js ":" ++ ·)).getD []

/-- The reference of an image. None of its parts has the sign that separates it from the next one, except that
the address of a host may have colons. -/
structure ImageReference where
  registry : Option ImageRegistry
  path : JsString
  tag : Option JsString
  digest : Option JsString
  hostPlain : ∀ r ∈ registry, 0x40 ∉ r.host ∧ 0x2F ∉ r.host
  portDigits : ∀ r ∈ registry, ∀ port ∈ r.port, ∀ c ∈ port, isDigitUnit c = true
  pathPlain : path ≠ [] ∧ 0x40 ∉ path ∧ 0x3A ∉ path
  tagPlain : ∀ t ∈ tag, 0x40 ∉ t ∧ 0x3A ∉ t

namespace ImageReference

variable (ref : ImageReference)

/-- The registry with a slash, if there is one -/
def registryText : JsString := (ref.registry.map fun r => r.text ++ js "/").getD []

/-- The registry and the repository -/
def name : JsString := ref.registryText ++ ref.path

def tagText : JsString := (ref.tag.map (js ":" ++ ·)).getD []

def digestText : JsString := (ref.digest.map (js "@" ++ ·)).getD []

def text : JsString := ref.name ++ ref.tagText ++ ref.digestText

/-- The references differ at most in the tag and the digest. -/
def SameName (ref' : ImageReference) : Prop := ref.registry = ref'.registry ∧ ref.path = ref'.path

theorem SameName.name {ref ref' : ImageReference} (h : ref.SameName ref') : ref.name = ref'.name := by
  rw [ImageReference.name, registryText, h.1, h.2, ImageReference.name, registryText]

end ImageReference

/-- The entity has an image with this reference. -/
def HasImage (ref : ImageReference) (entity : JsValue) : Prop :=
  attributeOf (js "image") entity = .str ref.text

/-- All attributes but the image are the same. -/
def SameButImage (e e' : JsValue) : Prop := ∀ k, k ≠ js "image" → attributeOf k e = attributeOf k e'

/-- The name is all that counts, and all of it counts: the image is normalised to it in small letters, which is
what the signals look at, and the role is the same for all tags and digests. -/
structure ClassifiedByName (rt : TextRuntime) (ref : ImageReference) : Prop where
  normalized : normalizeImageName rt ref.text = rt.toLowerCase ref.name
  substring : ∀ value e, HasImage ref e → evaluateSignal rt (.imageSubstring value) e =
    includes (rt.toLowerCase value) (rt.toLowerCase ref.name)
  regex : ∀ pattern flags e, HasImage ref e → evaluateSignal rt (.imageRegex pattern flags) e =
    (rt.regExpTest pattern (flags.getD (js "i")) (rt.toLowerCase ref.name)).getD false
  same : ∀ catalog ref' e e', ref.SameName ref' → HasImage ref e → HasImage ref' e' →
    SameButImage e e' → classifyRole rt catalog e = classifyRole rt catalog e'

/-! ### What is normalised -/

theorem splitOn_headD (a : CodeUnit) (x d : JsString) : (x.splitOn a).headD d = x.takeWhile (· ≠ a) := by
  induction x with
  | nil => rfl
  | cons c x ih =>
    -- the first piece goes on up to the separator
    rw [List.splitOn_cons_eq_if_modifyHead, List.takeWhile_cons]
    by_cases hc : c = a
    · rw [if_pos (beq_iff_eq.mpr hc), if_neg (by simp [hc])]
      rfl
    · rw [if_neg (by simpa using hc), if_pos (by simpa using hc)]
      obtain ⟨first, rest, hsplit⟩ := List.exists_cons_of_ne_nil (List.splitOn_ne_nil a x)
      rw [hsplit] at ih ⊢
      exact congrArg (c :: ·) ih

theorem takeWhile_append_stop {a : CodeUnit} {x : JsString} (hx : a ∉ x) (rest : JsString) :
    (x ++ rest).takeWhile (· ≠ a) = x ++ rest.takeWhile (· ≠ a) :=
  List.takeWhile_append_of_pos fun _ hc => decide_eq_true fun he => hx (he ▸ hc)

variable {rt : TextRuntime} {ref : ImageReference}

theorem ImageReference.noAt (ref : ImageReference) : 0x40 ∉ ref.name ++ ref.tagText := by
  have hport : ∀ r ∈ ref.registry, 0x40 ∉ (r.port.map (js ":" ++ ·)).getD [] := by
    intro r hr
    cases hp : r.port with
    | none => exact List.not_mem_nil
    | some port =>
      intro hmem
      rcases List.mem_append.mp hmem with hcolon | hdigit
      · exact absurd hcolon (by decide)
      · exact absurd (ref.portDigits r hr port hp _ hdigit) (by decide)
  have hregistry : 0x40 ∉ ref.registryText := by
    rw [registryText]
    cases hr : ref.registry with
    | none => exact List.not_mem_nil
    | some r =>
      intro hmem
      rcases List.mem_append.mp hmem with htext | hslash
      · rcases List.mem_append.mp htext with hhost | hrest
        · exact (ref.hostPlain r hr).1 hhost
        · exact hport r hr hrest
      · exact absurd hslash (by decide)
  have htag : 0x40 ∉ ref.tagText := by
    rw [tagText]
    cases ht : ref.tag with
    | none => exact List.not_mem_nil
    | some t =>
      intro hmem
      rcases List.mem_append.mp hmem with hcolon | hmem
      · exact absurd hcolon (by decide)
      · exact (ref.tagPlain t ht).1 hmem
  intro hmem
  rcases List.mem_append.mp hmem with hname | hmem
  · rcases List.mem_append.mp hname with hmem | hmem
    · exact hregistry hmem
    · exact ref.pathPlain.2.1 hmem
  · exact htag hmem

/-- What is left of an image is the part of its name before the first colon. -/
theorem normalizeImageName_text (rt : TextRuntime) (ref : ImageReference) :
    normalizeImageName rt ref.text = rt.toLowerCase (ref.name.takeWhile (· ≠ 0x3A)) := by
  have hdigest : ref.digestText.takeWhile (· ≠ 0x40) = [] := by
    rw [ImageReference.digestText]
    cases ref.digest <;> rfl
  have htag : ref.tagText.takeWhile (· ≠ 0x3A) = [] := by
    rw [ImageReference.tagText]
    cases ref.tag <;> rfl
  rw [normalizeImageName, splitOn_headD, splitOn_headD, ImageReference.text,
    takeWhile_append_stop ref.noAt, hdigest, List.append_nil]
  -- a colon of the name stops before the tag is reached; without one it is that of the tag
  by_cases hcolon : 0x3A ∈ ref.name
  · obtain ⟨before, after, hname⟩ := List.append_of_mem hcolon
    rw [List.takeWhile_append, if_neg]
    intro hlength
    have hall := List.takeWhile_eq_self_iff.mp
      ((List.takeWhile_prefix (p := (· ≠ (0x3A : CodeUnit)))).eq_of_length hlength) _ hcolon
    exact absurd hall (by decide)
  · rw [takeWhile_append_stop hcolon, htag, List.append_nil]
    have hall := takeWhile_append_stop hcolon []
    rw [List.takeWhile_nil, List.append_nil] at hall
    rw [hall]

theorem HasImage.text {e : JsValue} (h : HasImage ref e) : attributeText (js "image") e = ref.text := by
  rw [HasImage, attributeOf] at h
  rw [attributeText, h]

theorem ImageReference.text_ne_nil (ref : ImageReference) : ref.text ≠ [] := by
  have hname : ref.name ≠ [] := List.append_ne_nil_of_right_ne_nil _ ref.pathPlain.1
  exact List.append_ne_nil_of_left_ne_nil (List.append_ne_nil_of_left_ne_nil hname _) _

/-- The registry has a colon: a port is given, or the host is an IPv6 address. -/
def ImageReference.colonInRegistry (ref : ImageReference) : Bool :=
  ref.registry.any fun r => r.port.isSome || decide (0x3A ∈ r.host)

theorem ImageReference.colon_iff (ref : ImageReference) :
    0x3A ∈ ref.registryText ↔ ref.colonInRegistry = true := by
  rw [registryText, colonInRegistry]
  cases hr : ref.registry with
  | none => simp
  | some r =>
    have hslash : (0x3A : CodeUnit) ∉ js "/" := by decide
    simp only [Option.map_some, Option.getD_some, Option.any_some, ImageRegistry.text, List.mem_append,
      hslash, or_false, Bool.or_eq_true, decide_eq_true_eq]
    cases hp : r.port with
    | none => simp
    | some port => simp [js]

/-! ### When the name is all that counts -/

theorem evaluateSignal_image {e e' : JsValue} (hne : attributeText (js "image") e ≠ [])
    (hne' : attributeText (js "image") e' ≠ [])
    (hname : normalizeImageName rt (attributeText (js "image") e) =
      normalizeImageName rt (attributeText (js "image") e'))
    (hsame : SameButImage e e') (signal : RoleSignal) :
    evaluateSignal rt signal e = evaluateSignal rt signal e' := by
  cases signal with
  | imageSubstring value => simp only [evaluateSignal, hname, ne_eq, hne, hne', not_false_eq_true]
  | imageRegex pattern flags => simp only [evaluateSignal, hname, ne_eq, hne, hne', not_false_eq_true]
  -- the other signals do not look at the image
  | port port =>
    have hports := hsame (js "ports") (by decide)
    simp only [evaluateSignal, hports]
  | label key value =>
    have hlabels := hsame (js "labels") (by decide)
    simp only [evaluateSignal, hlabels]

/-- The tag and the digest never count. -/
theorem classifyRole_tag (catalog : List RolePattern) {ref' : ImageReference} {e e' : JsValue}
    (h : ref.SameName ref') (he : HasImage ref e) (he' : HasImage ref' e') (hsame : SameButImage e e') :
    classifyRole rt catalog e = classifyRole rt catalog e' := by
  have hsignal (signal : RoleSignal) : evaluateSignal rt signal e = evaluateSignal rt signal e' := by
    apply evaluateSignal_image (he.text ▸ ref.text_ne_nil) (he'.text ▸ ref'.text_ne_nil) _ hsame
    rw [he.text, he'.text, normalizeImageName_text, normalizeImageName_text, h.name]
  simp only [classifyRole, hsignal]

/-- An image is classified by its name exactly when there is no colon in its registry. Changing the case of
letters keeps the slashes. -/
theorem classifiedByName_iff (rt : TextRuntime) (ref : ImageReference)
    (hcase : ∀ s, (rt.toLowerCase s).count 0x2F = s.count 0x2F) :
    ClassifiedByName rt ref ↔ ref.colonInRegistry = false := by
  rw [← Bool.not_eq_true, ← ref.colon_iff]
  constructor
  · intro h hcolon
    have hshort (x : JsString) (hx : 0x3A ∈ x) : x.takeWhile (· ≠ 0x3A) ≠ x := by
      intro hself
      exact absurd (List.takeWhile_eq_self_iff.mp hself _ hx) (by decide)
    -- the colon of the registry comes before all of the path
    have hlost : ref.name.takeWhile (· ≠ 0x3A) = ref.registryText.takeWhile (· ≠ 0x3A) := by
      rw [ImageReference.name, List.takeWhile_append, if_neg]
      intro hlength
      exact hshort _ hcolon ((List.takeWhile_prefix _).eq_of_length hlength)
    have hnormalized := h.normalized
    rw [normalizeImageName_text, hlost] at hnormalized
    -- the cut cannot be seen in the letters, which may change, but in the slashes
    have hcount := congrArg (List.count 0x2F) hnormalized
    rw [hcase, hcase, ImageReference.name, List.count_append] at hcount
    -- what is left ends before the slash that the registry ends with
    have hbefore : (ref.registryText.takeWhile (· ≠ 0x3A)).count 0x2F < ref.registryText.count 0x2F := by
      have hcut := hshort _ hcolon
      have hpart : ref.registryText.takeWhile (· ≠ 0x3A) <+: ref.registryText := List.takeWhile_prefix _
      generalize ref.registryText.takeWhile (· ≠ 0x3A) = kept at hcut hpart
      rw [ImageReference.registryText] at hcolon hcut hpart ⊢
      cases hr : ref.registry with
      | none =>
        rw [hr] at hcolon
        exact absurd hcolon List.not_mem_nil
      | some r =>
        rw [hr] at hcut hpart
        have hslash : (js "/").count 0x2F = 1 := by decide
        rcases List.prefix_concat_iff.mp hpart with hwhole | hpart
        · exact absurd hwhole hcut
        · have hle := hpart.sublist.count_le 0x2F
          simp only [Option.map_some, Option.getD_some, List.count_append, hslash]
          omega
    omega
  · intro hcolon
    have hname : ref.name.takeWhile (· ≠ 0x3A) = ref.name := by
      have hnone : 0x3A ∉ ref.name := fun hmem =>
        (List.mem_append.mp hmem).elim hcolon ref.pathPlain.2.2
      have hall := takeWhile_append_stop hnone []
      rwa [List.takeWhile_nil, List.append_nil] at hall
    have hnormalized : normalizeImageName rt ref.text = rt.toLowerCase ref.name := by
      rw [normalizeImageName_text, hname]
    refine ⟨hnormalized, ?_, ?_, fun catalog ref' e e' h he he' hsame =>
      classifyRole_tag catalog h he he' hsame⟩
    · intro value e he
      simp only [evaluateSignal, he.text, hnormalized, ref.text_ne_nil, ne_eq, not_false_eq_true,
        decide_true, Bool.true_and]
    · intro pattern flags e he
      simp only [evaluateSignal, he.text, hnormalized, ref.text_ne_nil, ne_eq, not_false_eq_true,
        decide_true, Bool.true_and]

/-- Small letters for the capital ones of ASCII; regular expressions are left out. -/
def asciiText : TextRuntime where
  toLowerCase s := s.map fun c => if 0x41 ≤ c ∧ c ≤ 0x5A then c+0x20 else c
  regExpTest _ _ _ := none

theorem asciiText_slashes (s : JsString) : (asciiText.toLowerCase s).count 0x2F = s.count 0x2F := by
  have hunit (c : CodeUnit) : (if 0x41 ≤ c ∧ c ≤ 0x5A then c+0x20 else c) = 0x2F ↔ c = 0x2F := by
    split_ifs with hletter
    · constructor
      · intro h
        have hbounds := hletter
        simp only [UInt16.le_iff_toNat_le] at hbounds
        have hsum := congrArg UInt16.toNat h
        rw [UInt16.toNat_add] at hsum
        have h41 : (0x41 : CodeUnit).toNat = 65 := rfl
        have h5A : (0x5A : CodeUnit).toNat = 90 := rfl
        have h20 : (0x20 : CodeUnit).toNat = 32 := rfl
        have h2F : (0x2F : CodeUnit).toNat = 47 := rfl
        omega
      · rintro rfl
        exact absurd hletter (by decide)
    · exact Iff.rfl
  rw [asciiText, List.count_eq_countP, List.countP_map, List.count_eq_countP]
  congr 1
  funext c
  exact Bool.eq_iff_iff.mpr (by simpa using hunit c)

/-- The image of the documentation: a registry without a port, a tag and a digest -/
def authentikImage : ImageReference where
  registry := some ⟨js "ghcr.io", none⟩
  path := js "goauthentik/server"
  tag := some (js "2024.8.1")
  digest := some (js "sha256:abc")
  hostPlain := by decide
  portDigits := by decide
  pathPlain := by decide
  tagPlain := by decide

theorem classifiedByName_authentik :
    ClassifiedByName asciiText authentikImage ↔ authentikImage.colonInRegistry = false :=
  classifiedByName_iff asciiText authentikImage asciiText_slashes

/-- An image of a registry with a port -/
def portedImage : ImageReference where
  registry := some ⟨js "localhost", some (js "5000")⟩
  path := js "postgres"
  tag := some (js "16")
  digest := none
  hostPlain := by decide
  portDigits := by
    rintro r hr port hport
    obtain rfl := Option.some.inj hr
    obtain rfl := Option.some.inj hport
    exact List.all_eq_true.mp (by decide)
  pathPlain := by decide
  tagPlain := by decide

/-- With a port, nothing of the repository is left. -/
theorem classifiedByName_ported : ¬ ∀ (rt : TextRuntime) (ref : ImageReference),
    (∀ s, (rt.toLowerCase s).count 0x2F = s.count 0x2F) → ClassifiedByName rt ref := by
  intro h
  have hnormalized := (h asciiText portedImage asciiText_slashes).normalized
  exact absurd hnormalized (by decide)

end Homelab
