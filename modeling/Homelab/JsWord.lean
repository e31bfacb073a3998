import Mathlib.Algebra.Group.Int.Defs
import Mathlib.Data.Nat.Notation
import Mathlib.Data.Int.Notation
import Mathlib.Tactic.SplitIfs

/-! The bitwise operators of JavaScript on integers. They work on 32-bit words, whose values are
signed, but for `>>>`. -/
namespace Js

/-- `ToInt32` and `ToUint32`, as a word. -/
def toWord (x : ℤ) : BitVec 32 := BitVec.ofInt 32 x

/-- The distance of a shift: only the last five bits of it count. -/
def shiftCount (n : ℤ) : ℕ := (toWord n).toNat%32

/-- `x << n` -/
def shl (x n : ℤ) : ℤ := (toWord x <<< shiftCount n).toInt

/-- `x >>> n` -/
def ushr (x n : ℤ) : ℤ := (toWord x >>> shiftCount n).toNat

/-- `x & y` -/
def bitAnd (x y : ℤ) : ℤ := (toWord x &&& toWord y).toInt

/-- `x | y` -/
def bitOr (x y : ℤ) : ℤ := (toWord x ||| toWord y).toInt

/-- `~x` -/
def bitNot (x : ℤ) : ℤ := (~~~toWord x).toInt

@[simp] theorem toWord_natCast (n : ℕ) : toWord n = BitVec.ofNat 32 n := BitVec.ofInt_natCast 32 n

@[simp] theorem toWord_toInt (w : BitVec 32) : toWord w.toInt = w := BitVec.ofInt_toInt

theorem toWord_toNat (w : BitVec 32) : toWord (w.toNat : ℤ) = w := by
  rw [toWord_natCast, BitVec.ofNat_toNat, BitVec.setWidth_eq]

@[simp] theorem toWord_bitAnd (x y : ℤ) : toWord (bitAnd x y) = toWord x &&& toWord y :=
  toWord_toInt _

@[simp] theorem toWord_bitOr (x y : ℤ) : toWord (bitOr x y) = toWord x ||| toWord y :=
  toWord_toInt _

@[simp] theorem toWord_bitNot (x : ℤ) : toWord (bitNot x) = ~~~toWord x := toWord_toInt _

theorem shiftCount_natCast {n : ℕ} (h : n < 32) : shiftCount n = n := by
  rw [shiftCount, toWord_natCast, BitVec.toNat_ofNat]
  omega

theorem toWord_shl (x : ℤ) {n : ℕ} (h : n < 32) : toWord (shl x n) = toWord x <<< n := by
  rw [shl, toWord_toInt, shiftCount_natCast h]

theorem ushr_natCast (x : ℤ) {n : ℕ} (h : n < 32) : ushr x n = (toWord x >>> n).toNat := by
  rw [ushr, shiftCount_natCast h]

/-- `x >>> 0` is the unsigned value of the word. -/
theorem ushr_zero (x : ℤ) : ushr x 0 = (toWord x).toNat := by
  have hzero := ushr_natCast x (show 0 < 32 by decide)
  rw [BitVec.ushiftRight_zero] at hzero
  exact hzero

theorem ushr_nonneg (x n : ℤ) : 0 ≤ ushr x n := Int.natCast_nonneg _

theorem ushr_lt (x n : ℤ) : ushr x n < 2^32 := by
  have hlt := (toWord x >>> shiftCount n).isLt
  rw [ushr]
  omega

/-- An unsigned word is not changed by `>>> 0`. -/
theorem ushr_zero_self {x : ℤ} (h : 0 ≤ x) (h' : x < 2^32) : ushr x 0 = x := by
  obtain ⟨n, rfl⟩ := Int.eq_ofNat_of_zero_le h
  rw [ushr_zero, toWord_natCast, BitVec.toNat_ofNat, Nat.mod_eq_of_lt (by omega)]

end Js
