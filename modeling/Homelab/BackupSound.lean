import Homelab.BackupVerify

/-! When an answer of `verifyBackup` can be relied on. -/
namespace Homelab
open Js

/-- The date of the entry parses, and its age is at most the limit that applies to it. -/
def Fresh (rt : BackupRuntime) (input : VerifyInput) (e : JsValue) : Prop :=
  ∃ taken, takenAt rt e = some taken ∧ (ageSeconds rt taken).le (maxAge input e).toNumber = true

/-- What an answer of `verifyBackup` is taken to say. -/
structure Sound (rt : BackupRuntime) (input : VerifyInput) (entries : List JsValue)
    (e : JsValue) : Prop where
  mem : e ∈ entries
  platform : property (js "platform") e = .str input.platform
  hmac : HmacVerifies rt e
  fresh : Fresh rt input e
  latest : ∀ e' ∈ entries, property (js "platform") e' = .str input.platform →
    ∀ taken t, takenAt rt e = some taken → takenAt rt e' = some t → t ≤ taken

/-- The candidate carries a signature, a date and a limit that is a number; and all
candidates carry dates, or at least none carries a later one. -/
structure WellMarked (rt : BackupRuntime) (input : VerifyInput) (entries : List JsValue)
    (f : JsValue) : Prop where
  signed : property (js "hmac") f ≠ .str []
  dated : (takenAt rt f).isSome
  limited : (maxAge input f).toNumber ≠ .nan
  ordered : (∀ e ∈ candidatesFor input.platform entries, (takenAt rt e).isSome) ∨
    ∀ e ∈ candidatesFor input.platform entries, laterFirst rt f e = true

theorem ageSeconds_ne_nan (rt : BackupRuntime) (taken : ℤ) : ageSeconds rt taken ≠ .nan := by
  intro h
  cases h

/-- With a date and a limit that is a number, the comparison decides freshness. -/
theorem fresh_iff {rt : BackupRuntime} {input : VerifyInput} {e : JsValue} :
    Fresh rt input e ↔
      (takenAt rt e).isSome ∧ (maxAge input e).toNumber ≠ .nan ∧ ¬Stale rt input e := by
  constructor
  · intro h
    obtain ⟨taken, htaken, hle⟩ := h
    obtain ⟨_, hlimit, hlt⟩ := JsNumber.le_iff.mp hle
    refine ⟨Option.isSome_iff_exists.mpr ⟨taken, htaken⟩, hlimit, ?_⟩
    intro hstale
    obtain ⟨taken', htaken', hlt'⟩ := hstale
    rw [htaken] at htaken'
    cases htaken'
    exact Bool.false_ne_true (hlt.symm.trans hlt')
  · intro h
    obtain ⟨hdated, hlimit, hfresh⟩ := h
    obtain ⟨taken, htaken⟩ := Option.isSome_iff_exists.mp hdated
    refine ⟨taken, htaken, JsNumber.le_iff.mpr ⟨ageSeconds_ne_nan rt taken, hlimit, ?_⟩⟩
    rw [← Bool.not_eq_true]
    exact fun hlt => hfresh ⟨taken, htaken, hlt⟩

section

variable {rt : BackupRuntime} {input : VerifyInput} {entries : List JsValue} {f : JsValue}

theorem Accepts.candidate (h : Accepts rt input entries f) :
    f ∈ entries ∧ property (js "platform") f = .str input.platform := by
  obtain ⟨hmem, hfor⟩ := List.mem_filter.mp (head_sortByDate_mem rt h.first)
  exact ⟨hmem, (isFor_iff _ _).mp hfor⟩

/-- The entry that passes the checks is sound if it is marked as they assume, and only then. -/
theorem Accepts.sound_iff (h : Accepts rt input entries f) :
    Sound rt input entries f ↔ WellMarked rt input entries f := by
  obtain ⟨hmem, hplatform⟩ := h.candidate
  constructor
  · intro hsound
    obtain ⟨hmac, _, hp, hne, _⟩ := hsound.hmac
    obtain ⟨hdated, hlimit, _⟩ := fresh_iff.mp hsound.fresh
    refine ⟨?_, hdated, hlimit, Or.inr ?_⟩
    · rw [hp]
      exact fun heq => hne (JsValue.str.inj heq)
    · intro e he
      obtain ⟨hin, hfor⟩ := List.mem_filter.mp he
      have hlatest := hsound.latest e hin ((isFor_iff _ _).mp hfor)
      unfold laterFirst
      cases hf : takenAt rt f with
      | none => rfl
      | some taken =>
        cases ht : takenAt rt e with
        | none => rfl
        | some t => exact decide_eq_true (hlatest taken t hf ht)
  · intro hmarked
    refine ⟨hmem, hplatform, (h.passes f hmem).signed.resolve_left hmarked.signed,
      fresh_iff.mpr ⟨hmarked.dated, hmarked.limited, h.notStale⟩, ?_⟩
    intro e he hfor taken t hf ht
    have hcandidate : e ∈ candidatesFor input.platform entries :=
      List.mem_filter.mpr ⟨he, (isFor_iff _ _).mpr hfor⟩
    rcases hmarked.ordered with hparse | hlater
    · exact head_sortByDate_latest rt hparse h.first hf hcandidate ht
    · have hle := hlater e hcandidate
      rw [laterFirst, hf, ht] at hle
      exact of_decide_eq_true hle

end

/-- The first of January 2026, and a secret of 32 zeros. -/
def january : BackupRuntime where
  now := 1767225600000
  isoNow := js "2026-01-01T00:00:00.000Z"
  dateParse s := if s = js "2026-01-01T00:00:00.000Z" then some 1767225600000 else none
  secret := some (List.replicate 32 0x30)
  hmacSha256 _ _ := List.replicate 32 0
  syntaxMessage _ := []
  anyOrder l := l
  anyOrder_perm l := .refl l

def unsignedFile : JsString := js "\x7b\"entries\":[\x7b\"platform\":\"p\"\x7d]\x7d"

theorem jsonParse_unsignedFile : jsonParse unsignedFile =
    some (.obj [(js "entries", .arr [.obj [(js "platform", .str (js "p"))]])]) := by
  have htext : unsignedFile =
      jsonText (.obj [(js "entries", .arr [.obj [(js "platform", .str (js "p"))]])]) := by
    decide
  rw [htext]
  exact jsonParse_jsonText _ (by decide)

def unsignedEntry : JsValue :=
  promoteVerifier january (.obj [(js "platform", .str (js "p"))])

end Homelab
