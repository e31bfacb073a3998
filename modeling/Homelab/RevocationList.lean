import Homelab.CaCalls
import Mathlib.Data.List.DropRight

/-! The text of the revocation list: an appended line leaves all fingerprints that are read from the list, and
adds its own one if the platform's id cannot be taken for something else. -/

namespace Js

/-- What stands before the first separator is a prefix of the first part. -/
theorem splitOn_append_of_not_mem {a : CodeUnit} {x : JsString} (hx : a ∉ x) (rest : JsString) :
    (x ++ rest).splitOn a = (rest.splitOn a).modifyHead (x ++ ·) := by
  induction x with
  | nil =>
    change rest.splitOn a = (rest.splitOn a).modifyHead id
    rw [List.modifyHead_id]
    rfl
  | cons c x ih =>
    obtain ⟨hc, hx⟩ := not_or.mp (List.mem_cons.not.mp hx)
    have hne : (c == a) = false := beq_false_of_ne (Ne.symm hc)
    rw [List.cons_append, List.splitOn_cons_eq_if_modifyHead, hne, if_neg Bool.false_ne_true, ih hx,
      List.modifyHead_modifyHead]
    rfl

/-- Nothing is dropped from the right beyond a unit that is kept. -/
theorem rdropWhile_append_kept {p : CodeUnit → Bool} {x z : JsString} (hx : x ≠ [])
    (hkept : ∀ c ∈ x, p c = false) : (x ++ z).rdropWhile p = x ++ z.rdropWhile p := by
  induction z using List.reverseRecOn with
  | nil =>
    rw [List.append_nil, List.rdropWhile_nil, List.append_nil]
    apply List.rdropWhile_eq_self_iff.mpr
    intro _
    rw [hkept _ (List.getLast_mem hx)]
    exact Bool.false_ne_true
  | append_singleton z c ih =>
    rw [← List.append_assoc]
    by_cases hc : p c = true
    · rw [List.rdropWhile_concat_pos _ _ _ hc, List.rdropWhile_concat_pos _ _ _ hc, ih]
    · rw [List.rdropWhile_concat_neg _ _ _ hc, List.rdropWhile_concat_neg _ _ _ hc, List.append_assoc]

theorem rdropWhile_append_right {p : CodeUnit → Bool} {x y : JsString} (hy : y.rdropWhile p ≠ []) :
    (x ++ y).rdropWhile p = x ++ y.rdropWhile p := by
  induction y using List.reverseRecOn with
  | nil => exact absurd (List.rdropWhile_nil p) hy
  | append_singleton y c ih =>
    rw [← List.append_assoc]
    by_cases hc : p c = true
    · rw [List.rdropWhile_concat_pos _ _ _ hc] at hy ⊢
      rw [List.rdropWhile_concat_pos _ _ _ hc, ih hy]
    · rw [List.rdropWhile_concat_neg _ _ _ hc, List.rdropWhile_concat_neg _ _ _ hc, List.append_assoc]

/-- A text whose start is not blank is trimmed in its start and after its last unit that is no white space. -/
theorem trim_append {x y z : JsString} (hx : ¬ ∀ c ∈ x, isWhiteSpace c = true) (hy : y ≠ [])
    (hsolid : ∀ c ∈ y, isWhiteSpace c = false) :
    trim (x ++ (y ++ z)) = x.dropWhile isWhiteSpace ++ (y ++ z.rdropWhile isWhiteSpace) := by
  have hleft : (x ++ (y ++ z)).dropWhile isWhiteSpace = x.dropWhile isWhiteSpace ++ (y ++ z) := by
    rw [List.dropWhile_append, if_neg]
    rwa [List.isEmpty_iff, List.dropWhile_eq_nil_iff]
  change ((x ++ (y ++ z)).dropWhile isWhiteSpace).rdropWhile isWhiteSpace = _
  have hright := rdropWhile_append_kept (z := z) hy hsolid
  rw [hleft, rdropWhile_append_right, hright]
  rw [hright]
  exact List.append_ne_nil_of_left_ne_nil hy _

end Js

namespace Homelab
open Js

/-! ### Fingerprints -/

theorem not_white_of_fingerprintUnit {c : CodeUnit} (h : isFingerprintUnit c = true) :
    isWhiteSpace c = false := by
  -- no white space stands between `+` and `z`
  have hrange : 0x2B ≤ c.toNat ∧ c.toNat ≤ 0x7A := by
    simp only [isFingerprintUnit, isDigitUnit, Bool.or_eq_true, Bool.and_eq_true, decide_eq_true_eq] at h
    rcases h with ((((h | h) | h) | rfl) | rfl) | rfl
    · omega
    · omega
    · omega
    all_goals decide
  have hne (d : CodeUnit) (hd : ¬ (0x2B ≤ d.toNat ∧ d.toNat ≤ 0x7A)) : c ≠ d := by
    rintro rfl
    exact hd hrange
  simp only [isWhiteSpace, Bool.or_eq_false_iff, Bool.and_eq_false_iff, decide_eq_false_iff_not]
  refine ⟨⟨⟨⟨⟨⟨⟨⟨⟨⟨?_, ?_⟩, ?_⟩, ?_⟩, ?_⟩, ?_⟩, ?_⟩, ?_⟩, ?_⟩, ?_⟩, ?_⟩
  case refine_1 => omega
  case refine_5 => omega
  all_goals exact hne _ (by decide)

theorem matchFingerprint_eq_some {out fp : JsString} (h : matchFingerprint out = some fp) :
    fp ≠ [] ∧ ∀ c ∈ fp, isWhiteSpace c = false := by
  induction out with
  | nil => cases h
  | cons c rest ih =>
    rw [matchFingerprint] at h
    split_ifs at h with hfound
    · obtain rfl := Option.some.inj h
      refine ⟨List.append_ne_nil_of_right_ne_nil _ hfound.2, fun d hd => ?_⟩
      rcases List.mem_append.mp hd with hd | hd
      · have hhead : (js "SHA256:").all (fun d => !isWhiteSpace d) = true := by decide
        have hsolid := List.all_eq_true.mp hhead d hd
        rwa [Bool.not_eq_true'] at hsolid
      · exact not_white_of_fingerprintUnit (List.mem_takeWhile_imp hd)
    · exact ih h

/-! ### The list -/

namespace SSHCertificateManager

/-- The id of a platform as one field of a line -/
structure PlainId (platformId : JsString) : Prop where
  no_tab : 0x09 ∉ platformId
  no_break : 0x0A ∉ platformId
  not_blank : ¬ ∀ c ∈ platformId, isWhiteSpace c = true

variable {platformId fp : JsString}

/-- The second field of a line is its fingerprint, whatever comes after it. -/
theorem revokedBy_line (hid : PlainId platformId) (hfp : fp ≠ []) (hsolid : ∀ c ∈ fp, isWhiteSpace c = false)
    (w : JsString) : revokedBy (platformId ++ js "\t" ++ fp ++ js "\t" ++ w) = some fp := by
  have hstart : ¬ ∀ c ∈ platformId ++ js "\t", isWhiteSpace c = true :=
    fun h => hid.not_blank fun c hc => h c (List.mem_append_left _ hc)
  have hdrop : (platformId ++ js "\t").dropWhile isWhiteSpace =
      platformId.dropWhile isWhiteSpace ++ [0x09] := by
    rw [List.dropWhile_append, if_neg]
    · rfl
    · rw [List.isEmpty_iff, List.dropWhile_eq_nil_iff]
      exact hid.not_blank
  have htrim : trim (platformId ++ js "\t" ++ fp ++ js "\t" ++ w) =
      platformId.dropWhile isWhiteSpace ++ 0x09 :: (fp ++ (js "\t" ++ w).rdropWhile isWhiteSpace) := by
    rw [List.append_assoc (platformId ++ js "\t" ++ fp), List.append_assoc (platformId ++ js "\t"),
      trim_append hstart hfp hsolid, hdrop, List.append_assoc]
    rfl
  have hid' : 0x09 ∉ platformId.dropWhile isWhiteSpace :=
    fun h => hid.no_tab ((List.dropWhile_suffix _).subset h)
  have hfp' : (0x09 : CodeUnit) ∉ fp := by
    intro h
    exact absurd (hsolid _ h) (by decide)
  rw [revokedBy, htrim, List.splitOn_append_cons_self_of_not_mem hid', splitOn_append_of_not_mem hfp']
  have hend : ∃ tail, ((js "\t" ++ w).rdropWhile isWhiteSpace).splitOn 0x09 = [] :: tail := by
    obtain ⟨rest, hrest⟩ := List.rdropWhile_prefix isWhiteSpace (l := js "\t" ++ w)
    cases hcut : (js "\t" ++ w).rdropWhile isWhiteSpace with
    | nil => exact ⟨[], rfl⟩
    | cons c cs =>
      rw [hcut] at hrest
      obtain rfl : c = 0x09 := (List.cons.inj hrest).1
      exact ⟨cs.splitOn 0x09, by rw [List.splitOn_cons_eq_if_modifyHead, if_pos (beq_self_eq_true _)]⟩
  obtain ⟨tail, htail⟩ := hend
  rw [htail, List.modifyHead_cons, List.append_nil]
  exact if_neg hfp

theorem revokedBy_nil : revokedBy [] = none := rfl

/-- A line is read back, whatever stands in the list before it. -/
theorem mem_revoked_line (hid : PlainId platformId) (hfp : fp ≠ [])
    (hsolid : ∀ c ∈ fp, isWhiteSpace c = false) (now : JsString) :
    fp ∈ ((revocationLine platformId fp now).splitOn 0x0A).filterMap revokedBy := by
  have hbreak : 0x0A ∉ platformId ++ js "\t" ++ fp ++ js "\t" := by
    intro h
    rcases List.mem_append.mp h with h | h
    · rcases List.mem_append.mp h with h | h
      · rcases List.mem_append.mp h with h | h
        · exact hid.no_break h
        · revert h
          decide
      · exact absurd (hsolid _ h) (by decide)
    · revert h
      decide
  rw [revocationLine, List.append_assoc _ now, splitOn_append_of_not_mem hbreak]
  obtain ⟨w, tail, hw⟩ := List.exists_cons_of_ne_nil (List.splitOn_ne_nil 0x0A (now ++ js "\n"))
  rw [hw, List.modifyHead_cons]
  exact List.mem_filterMap.mpr ⟨_, List.mem_cons_self, revokedBy_line hid hfp hsolid w⟩

/-- A list that is empty or ends its last line -/
def EndsLine (raw : JsString) : Prop := raw = [] ∨ ∃ pre, raw = pre ++ js "\n"

/-- Appending to a list that ends its last line adds what is read from the new text. -/
theorem mem_revocationFingerprints_append {raw : JsString} (h : EndsLine raw) (text fp : JsString) :
    fp ∈ revocationFingerprints (raw ++ text) ↔
      fp ∈ revocationFingerprints raw ∨ fp ∈ (text.splitOn 0x0A).filterMap revokedBy := by
  rw [revocationFingerprints, revocationFingerprints, List.mem_eraseDups, List.mem_eraseDups]
  rcases h with rfl | ⟨pre, rfl⟩
  · have hnone : ([] : JsString).splitOn 0x0A = [[]] := rfl
    rw [List.nil_append, hnone, List.filterMap_cons_none revokedBy_nil]
    simp
  · have hjoin : pre ++ js "\n" ++ text = pre ++ 0x0A :: text := by
      rw [List.append_assoc]
      rfl
    have hold : (pre ++ js "\n").splitOn 0x0A = pre.splitOn 0x0A ++ [[]] :=
      List.splitOn_append_cons_self pre []
    rw [hjoin, List.splitOn_append_cons_self, hold, List.filterMap_append, List.filterMap_append,
      List.filterMap_cons_none revokedBy_nil, List.mem_append, List.mem_append]
    simp

end SSHCertificateManager

end Homelab
