import Mathlib.Data.Int.Log
import Mathlib.Data.Rat.Floor
import Mathlib.Tactic.NormNum
import Mathlib.Tactic.Positivity

/-! Sums and quotients that are rounded to doubles. -/
namespace Js

/-! ### Natural numbers -/

/-- The double that is nearest to a natural number; of two, the one with the even significand -/
def roundDouble (n : ℕ) : ℕ :=
  let unit := 2^(n.log2-52)
  let up := unit < 2*(n%unit) ∨ 2*(n%unit) = unit ∧ n/unit%2 = 1
  (if up then n/unit+1 else n/unit)*unit

theorem roundDouble_of_le {n : ℕ} (h : n ≤ 2^53) : roundDouble n = n := by
  rcases h.lt_or_eq with h | rfl
  -- up to 53 binary digits the unit is 1
  · have hlog : n.log2-52 = 0 := by
      rcases Nat.eq_zero_or_pos n with rfl | hpos
      · rfl
      · have := (Nat.log2_lt hpos.ne').mpr h
        omega
    rw [roundDouble, hlog]
    have hdown : ¬ (2^0 < 2*(n%2^0) ∨ 2*(n%2^0) = 2^0 ∧ n/2^0%2 = 1) := by omega
    simp only [hdown, if_false]
    omega
  · decide

/-! ### Quotients -/

/-- The integer that is nearest; of two, the even one -/
def roundEven (x : ℚ) : ℤ :=
  if 2*Int.fract x < 1 ∨ 2*Int.fract x = 1 ∧ ⌊x⌋%2 = 0 then ⌊x⌋ else ⌊x⌋+1

/-- The double that is nearest to a number of its range, with 53 binary digits -/
def nearestDouble (x : ℚ) : ℚ :=
  let unit := (2 : ℚ)^(Int.log 2 |x| - 52)
  roundEven (x/unit)*unit

theorem roundEven_nonneg {x : ℚ} (h : 0 ≤ x) : 0 ≤ roundEven x := by
  have hfloor := Int.floor_nonneg.mpr h
  rw [roundEven]
  split_ifs <;> omega

theorem roundEven_le {x : ℚ} {n : ℤ} (h : x ≤ n) : roundEven x ≤ n := by
  rw [roundEven]
  split_ifs with hdown
  · have hfloor : (⌊x⌋ : ℚ) ≤ n := (Int.floor_le x).trans h
    exact_mod_cast hfloor
  · -- what is rounded up is no integer
    have hlt : x < n := by
      apply lt_of_le_of_ne h
      rintro rfl
      rw [Int.fract_intCast] at hdown
      exact hdown (.inl (by norm_num))
    exact Int.floor_lt.mpr hlt

/-- The quotients between 0 and 1 are rounded to doubles between them. -/
theorem nearestDouble_mem {x : ℚ} (h0 : 0 ≤ x) (h1 : x ≤ 1) :
    0 ≤ nearestDouble x ∧ nearestDouble x ≤ 1 := by
  have hunit : (0 : ℚ) < 2^(Int.log 2 |x| - 52) := zpow_pos two_pos _
  have hlog : Int.log 2 |x| ≤ 0 := by
    rw [abs_of_nonneg h0]
    rcases h0.eq_or_lt with rfl | hpos
    · exact (Int.log_zero_right 2).le
    · have hmono : Int.log 2 x ≤ Int.log 2 (1 : ℚ) := Int.log_mono_right hpos h1
      rwa [Int.log_one_right] at hmono
  -- 1 is a whole number of units
  obtain ⟨n, hn⟩ := Int.eq_ofNat_of_zero_le (by omega : 0 ≤ 52 - Int.log 2 |x|)
  have hone : ((2^n : ℤ) : ℚ)*2^(Int.log 2 |x| - 52) = 1 := by
    have hexp : Int.log 2 |x| - 52 = -(n : ℤ) := by omega
    rw [hexp, zpow_neg, zpow_natCast]
    push_cast
    exact mul_inv_cancel₀ (by positivity)
  rw [nearestDouble]
  constructor
  · have hnonneg : (0 : ℚ) ≤ roundEven (x/2^(Int.log 2 |x| - 52)) := by
      exact_mod_cast roundEven_nonneg (div_nonneg h0 hunit.le)
    exact mul_nonneg hnonneg hunit.le
  · have hle : x/2^(Int.log 2 |x| - 52) ≤ ((2^n : ℤ) : ℚ) := by
      rw [div_le_iff₀ hunit, hone]
      exact h1
    have hround : (roundEven (x/2^(Int.log 2 |x| - 52)) : ℚ) ≤ ((2^n : ℤ) : ℚ) := by
      exact_mod_cast roundEven_le hle
    exact (mul_le_mul_of_nonneg_right hround hunit.le).trans hone.le

end Js
