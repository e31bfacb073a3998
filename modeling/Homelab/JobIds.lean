import Homelab.UnraidEnumerator

/-! The ids of the jobs that the Unraid enumerator finds. An id keeps 24 digits of Base64, which are the first 18
bytes of what tells the jobs apart, and the last two digits of the alphabet and the padding look alike in it. -/
namespace Js

/-! ### Base64 by its digits -/

theorem firstSix_lt (a : UInt8) : a.toNat/4 < 64 := by
  have := a.toNat_lt
  omega

theorem lastTwo_lt (a : UInt8) : a.toNat%4*16 < 64 := by omega

theorem lastTwo_firstFour_lt (a b : UInt8) : a.toNat%4*16+b.toNat/16 < 64 := by
  have := b.toNat_lt
  omega

theorem lastFour_lt (b : UInt8) : b.toNat%16*4 < 64 := by omega

theorem lastFour_firstTwo_lt (b c : UInt8) : b.toNat%16*4+c.toNat/64 < 64 := by
  have := c.toNat_lt
  omega

theorem lastSix_lt (c : UInt8) : c.toNat%64 < 64 := by omega

/-- The groups of six bits that Base64 prints, with `none` for a padding -/
def sextets : List UInt8 → List (Option (Fin 64))
  | [] => []
  | [a] => [some ⟨a.toNat/4, firstSix_lt a⟩, some ⟨a.toNat%4*16, lastTwo_lt a⟩, none, none]
  | [a, b] =>
    [some ⟨a.toNat/4, firstSix_lt a⟩, some ⟨a.toNat%4*16+b.toNat/16, lastTwo_firstFour_lt a b⟩,
      some ⟨b.toNat%16*4, lastFour_lt b⟩, none]
  | a :: b :: c :: rest =>
    some ⟨a.toNat/4, firstSix_lt a⟩ :: some ⟨a.toNat%4*16+b.toNat/16, lastTwo_firstFour_lt a b⟩ ::
      some ⟨b.toNat%16*4+c.toNat/64, lastFour_firstTwo_lt b c⟩ :: some ⟨c.toNat%64, lastSix_lt c⟩ ::
      sextets rest

def sextetUnit : Option (Fin 64) → CodeUnit
  | none => 0x3D
  | some v => base64Unit v

theorem base64_eq (bytes : List UInt8) : base64 bytes = (sextets bytes).map sextetUnit := by
  induction bytes using sextets.induct with
  | case1 => rfl
  | case2 a => rfl
  | case3 a b => rfl
  | case4 a b c rest ih =>
    rw [base64, sextets, List.map_cons, List.map_cons, List.map_cons, List.map_cons, ih]
    rfl

/-- The first digits are those of the first bytes. -/
theorem sextets_take (k : ℕ) (bytes : List UInt8) :
    (sextets bytes).take (4*k) = sextets (bytes.take (3*k)) := by
  -- three bytes fill four digits, so one step of the induction takes both
  induction k generalizing bytes with
  | zero => rfl
  | succ k ih =>
    have h4 : 4*(k+1) = 4*k+1+1+1+1 := by omega
    have h3 : 3*(k+1) = 3*k+1+1+1 := by omega
    rw [h4, h3]
    rcases bytes with _ | ⟨a, _ | ⟨b, _ | ⟨c, rest⟩⟩⟩
    · rfl
    · simp only [sextets, List.take_succ_cons, List.take_nil]
    · simp only [sextets, List.take_succ_cons, List.take_nil]
    · simp only [sextets, List.take_succ_cons, ih]

/-- The digit is one of the last two of the alphabet, or a padding. -/
def IsLast : Option (Fin 64) → Prop
  | none => True
  | some v => 62 ≤ v

/-- The digits look alike where `+`, `/` and `=` are replaced. -/
def Alike (u v : Option (Fin 64)) : Prop := u = v ∨ IsLast u ∧ IsLast v

end Js

namespace Homelab
open Js

/-- `.replace(/[+/=]/g, '_')` -/
def keyUnit (c : CodeUnit) : CodeUnit := if c = 0x2B ∨ c = 0x2F ∨ c = 0x3D then 0x5F else c

/-- The digit that a unit of a key stands for, and 62 for what is replaced -/
def keyDigit (c : CodeUnit) : ℕ :=
  if 0x41 ≤ c ∧ c ≤ 0x5A then c.toNat-0x41
  else if 0x61 ≤ c ∧ c ≤ 0x7A then c.toNat-0x61+26
  else if 0x30 ≤ c ∧ c ≤ 0x39 then c.toNat-0x30+52
  else 62

theorem keyDigit_keyUnit : ∀ a : Fin 64, keyDigit (keyUnit (base64Unit a)) = min a.val 62 := by
  decide +kernel

theorem keyUnit_last : ∀ a : Fin 64, 62 ≤ a → keyUnit (base64Unit a) = 0x5F := by
  decide +kernel

theorem keyUnit_eq_iff (u v : Option (Fin 64)) :
    keyUnit (sextetUnit u) = keyUnit (sextetUnit v) ↔ Alike u v := by
  have hdigit : ∀ u : Option (Fin 64), keyDigit (keyUnit (sextetUnit u)) = (u.map fun a => min a.val 62).getD 62 := by
    intro u
    cases u with
    | none => rfl
    | some a => exact keyDigit_keyUnit a
  have hlast : ∀ u, IsLast u → keyUnit (sextetUnit u) = 0x5F := by
    intro u hu
    cases u with
    | none => rfl
    | some a => exact keyUnit_last a hu
  constructor
  · intro h
    -- the digits are the same up to the last two of the alphabet
    have hsame := congrArg keyDigit h
    rw [hdigit, hdigit] at hsame
    cases u with
    | none =>
      cases v with
      | none => exact .inl rfl
      | some b =>
        refine .inr ⟨trivial, ?_⟩
        change 62 = min b.val 62 at hsame
        change 62 ≤ b.val
        omega
    | some a =>
      cases v with
      | none =>
        refine .inr ⟨?_, trivial⟩
        change min a.val 62 = 62 at hsame
        change 62 ≤ a.val
        omega
      | some b =>
        change min a.val 62 = min b.val 62 at hsame
        -- digits that differ can only agree as the last two
        by_cases hab : a = b
        · exact .inl (congrArg some hab)
        · have hne : a.val ≠ b.val := fun h => hab (Fin.ext h)
          refine .inr ⟨?_, ?_⟩
          · change 62 ≤ a.val
            omega
          · change 62 ≤ b.val
            omega
  · rintro (rfl | ⟨hu, hv⟩)
    · rfl
    · rw [hlast u hu, hlast v hv]

/-! ### The jobs of a host -/

/-- The jobs in the cron files, each of which is given with its path and its text -/
def scheduledJobs (files : List (JsString × JsString)) : List ParsedJob :=
  files.flatMap fun file => parseCrontab file.2 file.1

/-- What tells jobs apart -/
def ParsedJob.Same (job job' : ParsedJob) : Prop :=
  job.source = job'.source ∧ job.schedule = job'.schedule ∧ job.command = job'.command

def ParsedJob.bytes (job : ParsedJob) : List UInt8 :=
  encodeUtf8 (job.source ++ js ":" ++ job.schedule ++ js ":" ++ job.command)

/-- The ids of the entities that an enumeration makes of the job -/
def jobIds (ctx : EnumerationContext) (job : ParsedJob) : List JsValue :=
  (jobFound ctx job).entities.map (getOwn (js "id"))

theorem jobIds_eq (ctx : EnumerationContext) (job : ParsedJob) :
    jobIds ctx job = [.str (js "job:" ++ ctx.platformId ++ js ":" ++ stableKey job)] := rfl

/-- In every pass over the files, jobs that differ have different ids, and a job has the same id as in any other
pass on the platform, over these files or others. -/
structure JobIdentity (platformId : JsString) (files : List (JsString × JsString)) : Prop where
  apart : ∀ ctx : EnumerationContext, ctx.platformId = platformId → ∀ job ∈ scheduledJobs files,
    ∀ job' ∈ scheduledJobs files, jobIds ctx job = jobIds ctx job' → job.Same job'
  stable : ∀ ctx ctx' : EnumerationContext, ctx.platformId = platformId → ctx'.platformId = platformId →
    ∀ files', ∀ job ∈ scheduledJobs files, ∀ job' ∈ scheduledJobs files', job.Same job' →
      jobIds ctx job = jobIds ctx' job'

/-- The digits that are kept of the two jobs look alike. -/
def KeysAlike (job job' : ParsedJob) : Prop :=
  List.Forall₂ Alike ((sextets job.bytes).take 24) ((sextets job'.bytes).take 24)

theorem stableKey_eq (job : ParsedJob) :
    stableKey job = ((sextets job.bytes).take 24).map fun v => keyUnit (sextetUnit v) := by
  have hkey : stableKey job = ((base64 job.bytes).take 24).map keyUnit := rfl
  rw [hkey, base64_eq, ← List.map_take, List.map_map]
  rfl

theorem stableKey_eq_iff (job job' : ParsedJob) : stableKey job = stableKey job' ↔ KeysAlike job job' := by
  rw [stableKey_eq, stableKey_eq, ← List.forall₂_eq_eq_eq, List.forall₂_map_left_iff,
    List.forall₂_map_right_iff, KeysAlike]
  simp only [keyUnit_eq_iff]

/-- Jobs whose first 18 bytes are the same have one id. -/
theorem stableKey_of_take {job job' : ParsedJob} (h : job.bytes.take 18 = job'.bytes.take 18) :
    stableKey job = stableKey job' := by
  rw [stableKey_eq, stableKey_eq, sextets_take 6, sextets_take 6, h]

theorem jobIds_eq_iff {ctx ctx' : EnumerationContext} (hctx : ctx.platformId = ctx'.platformId)
    {job job' : ParsedJob} : jobIds ctx job = jobIds ctx' job' ↔ stableKey job = stableKey job' := by
  rw [jobIds_eq, jobIds_eq, hctx]
  constructor
  · intro h
    exact List.append_cancel_left (JsValue.str.inj (List.cons.inj h).1)
  · intro h
    rw [h]

/-- The jobs keep their identity exactly when no two that differ have digits that look alike. -/
theorem jobIdentity_iff (platformId : JsString) (files : List (JsString × JsString)) :
    JobIdentity platformId files ↔ ∀ job ∈ scheduledJobs files, ∀ job' ∈ scheduledJobs files,
      KeysAlike job job' → job.Same job' := by
  constructor
  · intro h job hjob job' hjob' halike
    exact h.apart ⟨platformId, none, []⟩ rfl job hjob job' hjob'
      ((jobIds_eq_iff rfl).mpr ((stableKey_eq_iff job job').mpr halike))
  · intro h
    constructor
    · intro ctx _ job hjob job' hjob' hids
      exact h job hjob job' hjob' ((stableKey_eq_iff job job').mp ((jobIds_eq_iff rfl).mp hids))
    -- that a job keeps its id needs no condition: the id is computed from the job
    · intro ctx ctx' hctx hctx' files' job _ job' _ hsame
      have hbytes : job.bytes = job'.bytes := by
        rw [ParsedJob.bytes, ParsedJob.bytes, hsame.1, hsame.2.1, hsame.2.2]
      rw [jobIds_eq_iff (hctx.trans hctx'.symm)]
      exact stableKey_of_take (congrArg _ hbytes)

deriving instance DecidableEq for ParsedJob

/-- Two jobs of one file of a plugin -/
def parityFile : JsString × JsString :=
  (js "/boot/config/plugins/dynamix/parity.cron",
    js "0 3 * * 0 /usr/local/sbin/mdcmd check\n30 4 * * 0 /usr/local/sbin/mdcmd nocheck")

def checkJob : ParsedJob :=
  ⟨parityFile.1, js "0 3 * * 0", js "/usr/local/sbin/mdcmd check", js "mdcmd-parity-check"⟩

def nocheckJob : ParsedJob :=
  ⟨parityFile.1, js "30 4 * * 0", js "/usr/local/sbin/mdcmd nocheck", js "mdcmd-parity-check"⟩

/-- The path of the file alone fills the id. -/
theorem jobs_overwritten : ¬ ∀ platformId files, JobIdentity platformId files := by
  intro h
  have hjobs : scheduledJobs [parityFile] = [checkJob, nocheckJob] := by decide +kernel
  have hids : jobIds ⟨js "tower", none, []⟩ checkJob = jobIds ⟨js "tower", none, []⟩ nocheckJob := by
    rw [jobIds_eq_iff rfl]
    apply stableKey_of_take
    decide +kernel
  have hsame : checkJob.Same nocheckJob := by
    apply (h (js "tower") [parityFile]).apart ⟨js "tower", none, []⟩ rfl
    · rw [hjobs]
      exact List.mem_cons_self
    · rw [hjobs]
      exact List.mem_cons_of_mem _ List.mem_cons_self
    · exact hids
  exact absurd hsame.2.1 (by decide +kernel)

end Homelab
