import Homelab.BackupManifest
import Mathlib.Data.List.Sort

/-! `verifyBackup`: the entry that it picks for a platform, and what is known of it. -/
namespace Homelab
open Js

/-- `VerifyInput`; the overrides are the own properties of their object. -/
structure VerifyInput where
  platform : JsString
  target : JsString
  freshnessOverrides : Option Fields

/-! ### Limits -/

/-- The methods that every plain object inherits. -/
def inheritedMethods : List JsString :=
  [js "constructor", js "toString", js "toLocaleString", js "valueOf", js "hasOwnProperty",
    js "isPrototypeOf", js "propertyIsEnumerable", js "__defineGetter__", js "__defineSetter__",
    js "__lookupGetter__", js "__lookupSetter__"]

def inherited (k : JsString) : JsValue :=
  if k ∈ inheritedMethods then .function
  else if k = js "__proto__" then .obj []
  else .undefined

/-- `obj[k]` for a plain object whose own properties are not `undefined`. -/
def lookupPlain (fs : Fields) (k : JsString) : JsValue :=
  match getOwn k fs with
  | .undefined => inherited k
  | v => v

def defaultFreshness : Fields :=
  [(js "proxmox", .num (.ofNat 86400)), (js "truenas", .num (.ofNat 86400)),
    (js "freenas", .num (.ofNat 86400)), (js "docker", .num (.ofNat (7*86400))),
    (js "kubernetes", .num (.ofNat 86400)), (js "unraid", .num (.ofNat 86400)),
    (js "unifi", .num (.ofNat (7*86400)))]

def fallbackMaxAgeSeconds : JsValue := .num (.ofNat 86400)

def overrideFor (input : VerifyInput) : JsValue :=
  match input.freshnessOverrides with
  | none => .undefined
  | some fs => lookupPlain fs input.platform

def maxAge (input : VerifyInput) (e : JsValue) : JsValue :=
  (((overrideFor input).orElse (property (js "max_age_seconds") e)).orElse
    (lookupPlain defaultFreshness input.platform)).orElse fallbackMaxAgeSeconds

/-! ### Dates -/

/-- `Date.parse(e.taken_at)` -/
def takenAt (rt : BackupRuntime) (e : JsValue) : Option ℤ :=
  rt.dateParse (property (js "taken_at") e).coerce

def ageSeconds (rt : BackupRuntime) (taken : ℤ) : JsNumber := .ofScaledInt (rt.now-taken) 3

/-- The comparator does not answer that `b` comes before `a`; `NaN` counts as zero. -/
def laterFirst (rt : BackupRuntime) (a b : JsValue) : Bool :=
  match takenAt rt a, takenAt rt b with
  | some s, some t => t ≤ s
  | _, _ => true

/-- The comparator is consistent on the list: all dates parse, or no two differ. -/
def consistentDates (rt : BackupRuntime) (l : List JsValue) : Bool :=
  (l.all fun e => (takenAt rt e).isSome) || l.all fun a => l.all fun b => laterFirst rt a b

/-- `[...l].sort((a, b) => Date.parse(b.taken_at) - Date.parse(a.taken_at))` -/
def sortByDate (rt : BackupRuntime) (l : List JsValue) : List JsValue :=
  if consistentDates rt l then l.mergeSort (laterFirst rt) else rt.anyOrder l

/-! ### `verifyBackup` -/

def isEmptyText : JsValue → Bool
  | .str [] => true
  | _ => false

def isFor (platform : JsString) (e : JsValue) : Bool :=
  match property (js "platform") e with
  | .str p => p == platform
  | _ => false

def tampered (e : JsValue) : BackupError :=
  let platform := property (js "platform") e
  if platform.throwsOnCoerce then .typeError coercionMessage
  else .error (js "Tampered backup-manifest entry for platform=" ++ platform.coerce)

/-- The loop over the entries: an entry with a signature must verify. -/
def collectCandidates (rt : BackupRuntime) (platform : JsString) (candidates : List JsValue) :
    List JsValue → Except BackupError (List JsValue)
  | [] => .ok candidates
  | e :: rest => do
    let hmac ← (readProperty e (js "hmac")).mapError .typeError
    if isEmptyText hmac || verifyEntryHmac rt e then
      collectCandidates rt platform
        (if isFor platform e then candidates ++ [e] else candidates) rest
    else .error (tampered e)

def staleError (rt : BackupRuntime) (input : VerifyInput) (limit : JsNumber) (taken : ℤ) :
    BackupError :=
  .required input.target (input.platform ++ js " (stale: " ++
    ((ageSeconds rt taken).floorDiv 3600).toText ++ js "h old, limit " ++
    (limit.floorDiv 3600).toText ++ js "h)")

/-- The comparison of the age with the limit; one with `NaN` is false. -/
def checkFreshness (rt : BackupRuntime) (input : VerifyInput) (freshest : JsValue) :
    Except BackupError JsValue :=
  let limit := maxAge input freshest
  if limit.throwsOnCoerce then .error (.typeError coercionMessage)
  else
    match takenAt rt freshest with
    | none => .ok freshest
    | some taken =>
      if limit.toNumber.lt (ageSeconds rt taken) then
        .error (staleError rt input limit.toNumber taken)
      else .ok freshest

/-- `verifyBackup`, which answers the entry. A date that cannot be coerced throws in the
comparator, or where the age is computed. -/
def verifyBackup (rt : BackupRuntime) (file : Except ErrnoException JsString)
    (input : VerifyInput) : Except BackupError JsValue := do
  let entries ← readManifest rt file
  let candidates ← collectCandidates rt input.platform [] entries
  if candidates.any fun e => (property (js "taken_at") e).throwsOnCoerce then
    .error (.typeError coercionMessage)
  else
    match (sortByDate rt candidates).head? with
    | none => .error (.required input.target input.platform)
    | some freshest => checkFreshness rt input freshest

/-! ### The entry that is accepted -/

/-- The loop goes on after this entry. -/
structure Passes (rt : BackupRuntime) (e : JsValue) : Prop where
  object : ∃ hmac, e.get? (js "hmac") = some hmac
  signed : property (js "hmac") e = .str [] ∨ HmacVerifies rt e

def candidatesFor (platform : JsString) (entries : List JsValue) : List JsValue :=
  entries.filter (isFor platform)

/-- The comparison finds the entry older than its limit. -/
def Stale (rt : BackupRuntime) (input : VerifyInput) (e : JsValue) : Prop :=
  ∃ taken, takenAt rt e = some taken ∧ (maxAge input e).toNumber.lt (ageSeconds rt taken) = true

/-- What the code asks of the entries and of the candidate that its sort puts first. -/
structure Accepts (rt : BackupRuntime) (input : VerifyInput) (entries : List JsValue)
    (f : JsValue) : Prop where
  passes : ∀ e ∈ entries, Passes rt e
  coercible : ∀ e ∈ candidatesFor input.platform entries,
    (property (js "taken_at") e).throwsOnCoerce = false
  first : (sortByDate rt (candidatesFor input.platform entries)).head? = some f
  limit : (maxAge input f).throwsOnCoerce = false
  notStale : ¬Stale rt input f

theorem isEmptyText_iff (v : JsValue) : isEmptyText v = true ↔ v = .str [] := by
  unfold isEmptyText
  split
  · exact ⟨fun _ => rfl, fun _ => rfl⟩
  · next h => exact ⟨fun hf => absurd hf Bool.false_ne_true, fun heq => absurd heq h⟩

theorem isFor_iff (platform : JsString) (e : JsValue) :
    isFor platform e = true ↔ property (js "platform") e = .str platform := by
  unfold isFor
  split
  · next p h => rw [h, beq_iff_eq, JsValue.str.injEq]
  · next h => exact ⟨fun hf => absurd hf Bool.false_ne_true, fun heq => absurd heq (h platform)⟩

/-- A stable sort by descending keys puts an element with the greatest key first. -/
theorem head_mergeSort_key {α : Type} (key : α → ℤ) {le : α → α → Bool} {l : List α}
    (hle : ∀ a ∈ l, ∀ b ∈ l, le a b = decide (key b ≤ key a)) {f : α}
    (hf : (l.mergeSort le).head? = some f) : ∀ a ∈ l, key a ≤ key f := by
  intro a ha
  have hmap : (l.mergeSort le).map key = (l.map key).mergeSort fun s t => decide (t ≤ s) :=
    List.map_mergeSort hle
  have hsorted : ((l.mergeSort le).map key).Pairwise fun s t => t ≤ s := by
    rw [hmap]
    refine (List.pairwise_mergeSort ?_ ?_ _).imp fun h => of_decide_eq_true h
    · simp only [decide_eq_true_eq]
      exact fun r s t hsr hts => hts.trans hsr
    · simp only [Bool.or_eq_true, decide_eq_true_eq]
      exact fun s t => le_total t s
  obtain ⟨rest, hcons⟩ := List.head?_eq_some_iff.mp hf
  have hmem : a ∈ f :: rest := hcons ▸ List.mem_mergeSort.mpr ha
  rw [hcons, List.map_cons, List.pairwise_cons] at hsorted
  rcases List.mem_cons.mp hmem with rfl | hrest
  · exact le_rfl
  · exact hsorted.1 _ (List.mem_map_of_mem hrest)

section Spec

variable (rt : BackupRuntime) (input : VerifyInput)

theorem collectCandidates_iff {platform : JsString} {entries done cs : List JsValue} :
    collectCandidates rt platform done entries = .ok cs ↔
      (∀ e ∈ entries, Passes rt e) ∧ cs = done ++ candidatesFor platform entries := by
  induction entries generalizing done with
  | nil => simp [collectCandidates, candidatesFor, eq_comm]
  | cons e rest ih =>
    rw [collectCandidates, readProperty]
    cases hget : e.get? (js "hmac") with
    | none =>
      constructor
      · intro h
        cases h
      · intro h
        obtain ⟨hmac, hsome⟩ := (h.1 e (List.mem_cons_self ..)).object
        rw [hget] at hsome
        cases hsome
    | some hmac =>
      have hproperty : property (js "hmac") e = hmac := by rw [property, hget]; rfl
      have hpasses : Passes rt e ↔ (isEmptyText hmac || verifyEntryHmac rt e) = true := by
        rw [Bool.or_eq_true, isEmptyText_iff, verifyEntryHmac_iff, ← hproperty]
        exact ⟨Passes.signed, fun h => ⟨⟨hmac, hget⟩, h⟩⟩
      change (if (isEmptyText hmac || verifyEntryHmac rt e) = true then _ else _) = _ ↔ _
      split_ifs with hsigned hfor
      · rw [ih, List.forall_mem_cons, candidatesFor, candidatesFor, List.filter_cons_of_pos hfor,
          List.append_assoc]
        exact and_congr_left' (by simp [hpasses.mpr hsigned])
      · rw [ih, List.forall_mem_cons, candidatesFor, candidatesFor, List.filter_cons_of_neg hfor]
        exact and_congr_left' (by simp [hpasses.mpr hsigned])
      · constructor
        · intro h
          cases h
        · intro h
          exact absurd (hpasses.mp (h.1 e (List.mem_cons_self ..))) hsigned

theorem checkFreshness_iff {f e : JsValue} : checkFreshness rt input f = .ok e ↔
    (maxAge input f).throwsOnCoerce = false ∧ ¬Stale rt input f ∧ e = f := by
  rw [checkFreshness, ← Bool.not_eq_true]
  split_ifs with hthrows
  · exact ⟨fun h => (by cases h), fun h => absurd hthrows h.1⟩
  · cases htaken : takenAt rt f with
    | none =>
      have hfresh : ¬Stale rt input f := by
        intro hstale
        obtain ⟨taken, hsome, _⟩ := hstale
        rw [htaken] at hsome
        cases hsome
      constructor
      · intro h
        cases h
        exact ⟨hthrows, hfresh, rfl⟩
      · intro h
        rw [h.2.2]
    | some taken =>
      have hstale : Stale rt input f ↔
          (maxAge input f).toNumber.lt (ageSeconds rt taken) = true := by
        constructor
        · intro h
          obtain ⟨taken', hsome, hlt⟩ := h
          rw [htaken] at hsome
          cases hsome
          exact hlt
        · exact fun hlt => ⟨taken, htaken, hlt⟩
      dsimp only
      rw [hstale]
      split_ifs with hlt
      · exact ⟨fun h => (by cases h), fun h => absurd hlt h.2.1⟩
      · constructor
        · intro h
          cases h
          exact ⟨hthrows, hlt, rfl⟩
        · intro h
          rw [h.2.2]

/-- All that `verifyBackup` asks before it answers an entry. -/
theorem verifyBackup_iff {file : Except ErrnoException JsString} {f : JsValue} :
    verifyBackup rt file input = .ok f ↔
      ∃ entries, readManifest rt file = .ok entries ∧ Accepts rt input entries f := by
  unfold verifyBackup
  cases hread : readManifest rt file with
  | error e =>
    constructor
    · intro h
      cases h
    · intro h
      obtain ⟨_, hok, _⟩ := h
      cases hok
  | ok entries =>
    -- the gates of the source in their order: the candidates, their dates, the first of them, its age
    change (collectCandidates rt input.platform [] entries >>= _) = _ ↔ _
    cases hcollect : collectCandidates rt input.platform [] entries with
    | error e =>
      constructor
      · intro h
        cases h
      · intro h
        obtain ⟨_, hok, haccepts⟩ := h
        cases hok
        have hcs : collectCandidates rt input.platform [] entries =
            .ok ([] ++ candidatesFor input.platform entries) :=
          (collectCandidates_iff rt).mpr ⟨haccepts.passes, rfl⟩
        rw [hcollect] at hcs
        cases hcs
    | ok cs =>
      obtain ⟨hpasses, rfl⟩ := (collectCandidates_iff rt).mp hcollect
      rw [List.nil_append]
      change (if _ then _ else _) = _ ↔ _
      -- a date that cannot be made a text makes the sorting throw
      split_ifs with hany
      · constructor
        · intro h
          cases h
        · intro h
          obtain ⟨_, hok, haccepts⟩ := h
          cases hok
          obtain ⟨e, he, hthrows⟩ := List.any_eq_true.mp hany
          exact absurd hthrows (by rw [haccepts.coercible e he]; exact Bool.false_ne_true)
      · have hcoercible : ∀ e ∈ candidatesFor input.platform entries,
            (property (js "taken_at") e).throwsOnCoerce = false := by
          intro e he
          rw [← Bool.not_eq_true]
          exact fun hthrows => hany (List.any_eq_true.mpr ⟨e, he, hthrows⟩)
        cases hfirst : (sortByDate rt (candidatesFor input.platform entries)).head? with
        | none =>
          constructor
          · intro h
            cases h
          · intro h
            obtain ⟨_, hok, haccepts⟩ := h
            cases hok
            have hsome := haccepts.first
            rw [hfirst] at hsome
            cases hsome
        | some freshest =>
          dsimp only
          rw [checkFreshness_iff]
          constructor
          · intro h
            obtain ⟨hlimit, hfresh, rfl⟩ := h
            exact ⟨entries, rfl, hpasses, hcoercible, hfirst, hlimit, hfresh⟩
          · intro h
            obtain ⟨_, hok, haccepts⟩ := h
            cases hok
            have hsome := haccepts.first
            rw [hfirst] at hsome
            cases hsome
            exact ⟨haccepts.limit, haccepts.notStale, rfl⟩

theorem head_sortByDate_mem {l : List JsValue} {f : JsValue}
    (h : (sortByDate rt l).head? = some f) : f ∈ l := by
  have hmem := List.mem_of_head? h
  unfold sortByDate at hmem
  split_ifs at hmem
  · exact List.mem_mergeSort.mp hmem
  · exact (rt.anyOrder_perm l).mem_iff.mp hmem

/-- Where all dates parse, the first entry of the sorted list is the latest. -/
theorem head_sortByDate_latest {l : List JsValue} {f : JsValue} {taken : ℤ}
    (hparse : ∀ e ∈ l, (takenAt rt e).isSome) (h : (sortByDate rt l).head? = some f)
    (hf : takenAt rt f = some taken) {e : JsValue} {t : ℤ} (he : e ∈ l)
    (ht : takenAt rt e = some t) : t ≤ taken := by
  have hconsistent : consistentDates rt l = true := by
    rw [consistentDates, Bool.or_eq_true, List.all_eq_true]
    exact Or.inl hparse
  rw [sortByDate, if_pos hconsistent] at h
  -- on dates that parse the comparator is the order of the dates
  have hkey : ∀ a ∈ l, ∀ b ∈ l, laterFirst rt a b =
      decide ((takenAt rt b).getD 0 ≤ (takenAt rt a).getD 0) := by
    intro a ha b hb
    obtain ⟨s, hs⟩ := Option.isSome_iff_exists.mp (hparse a ha)
    obtain ⟨u, hu⟩ := Option.isSome_iff_exists.mp (hparse b hb)
    rw [laterFirst, hs, hu]
    rfl
  have hle := head_mergeSort_key (fun e => (takenAt rt e).getD 0) hkey h e he
  rw [hf, ht] at hle
  exact hle

end Spec

end Homelab
