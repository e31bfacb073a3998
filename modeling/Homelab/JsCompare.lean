import Homelab.JsCoerce
import Mathlib.Algebra.Order.Field.Power
import Mathlib.Tactic.FieldSimp

/-! Numbers of milliseconds: the difference of two dates, and how it compares. -/
namespace Js

theorem Decimal.value_ofScaled_zero (neg : Bool) (m : ℕ) :
    (Decimal.ofScaled neg m 0).value = if neg then -(m : ℚ) else m := by
  have hvalue (j : ℕ) (hm : m = (Decimal.ofScaled neg m 0).digits*10^j)
      (he : (Decimal.ofScaled neg m 0).exp = j) :
      (Decimal.ofScaled neg m 0).value = if neg then -(m : ℚ) else m := by
    have hcast : (m : ℚ) = (Decimal.ofScaled neg m 0).digits*10^j := by exact_mod_cast hm
    rw [Decimal.value, he, zpow_natCast, Decimal.mantissa, hcast]
    change ((if neg = true then _ else _ : ℤ) : ℚ)*10^j = _
    split_ifs
    · push_cast
      ring
    · push_cast
      ring
  rcases Nat.eq_zero_or_pos m with rfl | hm
  · apply hvalue 0
    · rw [Decimal.ofScaled_zero]
      rfl
    · rw [Decimal.ofScaled_zero]
      rfl
  · obtain ⟨j, hj, he⟩ := stripZeros_value (m+1) m 0 (Nat.lt_succ_self m) hm.ne'
    apply hvalue j hj
    rw [zero_add] at he
    exact he

namespace JsNumber

/-- `a - b` for two dates; a date is `none` when it is `NaN`. -/
def dateDiff (a b : Option ℤ) : JsNumber :=
  match a, b with
  | some a, some b => .ofScaledInt (a-b) 0
  | _, _ => .nan

theorem dateDiff_some (a b : ℤ) : dateDiff (some a) (some b) = .ofScaledInt (a-b) 0 := rfl

theorem value_ofScaledInt (n : ℤ) : (Decimal.ofScaled (n < 0) n.natAbs 0).value = n := by
  rw [Decimal.value_ofScaled_zero]
  by_cases hn : n < 0
  · rw [decide_eq_true hn, if_pos rfl, ← Int.cast_natCast, ← Int.cast_neg, Int.ofNat_natAbs_of_nonpos hn.le,
      neg_neg]
  · rw [decide_eq_false hn, if_neg (by decide), ← Int.cast_natCast, Int.natAbs_of_nonneg (not_lt.mp hn)]

/-- What a number of milliseconds reaches, every larger one reaches. -/
theorem le_ofScaledInt_mono {x : JsNumber} {m n : ℤ} (h : x.le (.ofScaledInt m 0) = true) (hmn : m ≤ n) :
    x.le (.ofScaledInt n 0) = true := by
  rw [le_iff] at h ⊢
  obtain ⟨hx, -, hlt⟩ := h
  have hnumber : ofScaledInt n 0 ≠ .nan := by
    intro hnan
    cases hnan
  refine ⟨hx, hnumber, ?_⟩
  cases x with
  | nan => exact absurd rfl hx
  | inf s => exact hlt
  | fin d =>
    have hm : ¬ (m : ℚ) < d.value := by
      rw [← value_ofScaledInt m]
      exact of_decide_eq_false hlt
    have hcast : (m : ℚ) ≤ n := by exact_mod_cast hmn
    have hn : ¬ (Decimal.ofScaled (n < 0) n.natAbs 0).value < d.value := by
      rw [value_ofScaledInt]
      exact not_lt.mpr ((not_lt.mp hm).trans hcast)
    exact decide_eq_false hn

/-- What is larger than a number of milliseconds is larger than each smaller one. -/
theorem lt_ofScaledInt_mono {x : JsNumber} {m n : ℤ} (h : (ofScaledInt n 0).lt x = true) (hmn : m ≤ n) :
    (ofScaledInt m 0).lt x = true := by
  by_contra hnot
  have hx : x ≠ .nan := by
    rintro rfl
    cases h
  have hnumber : ofScaledInt m 0 ≠ .nan := by
    intro hnan
    cases hnan
  have hle : x.le (ofScaledInt m 0) = true := le_iff.mpr ⟨hx, hnumber, Bool.eq_false_iff.mpr hnot⟩
  obtain ⟨-, -, hfalse⟩ := le_iff.mp (le_ofScaledInt_mono hle hmn)
  rw [hfalse] at h
  cases h

end JsNumber

end Js
