import Mathlib.Data.Nat.Digits.Lemmas
import Mathlib.Tactic.Ring

/-! JavaScript numbers named by the decimal that `Number::toString` prints for
them, and the JSON number syntax. The number of digits is not bounded, so every
finite double has its decimal here and reading a printed decimal is exact. -/
namespace Js

/-- A UTF-16 code unit; a JavaScript string is a list of them. -/
abbrev CodeUnit := UInt16

abbrev JsString := List CodeUnit

instance : LawfulBEq JsString := inferInstance

/-- A string literal of the source. -/
def js (s : String) : JsString := s.toList.map fun c => c.toNat.toUInt16

/-- Strip trailing decimal zeros from a significand, raising the exponent. -/
def stripZeros : ℕ → ℕ → ℤ → ℕ × ℤ
  | 0, m, e => (m, e)
  | fuel+1, m, e =>
    if m = 0 then (0, 0)
    else if m%10 = 0 then stripZeros fuel (m/10) (e+1)
    else (m, e)

/-- Stripping keeps the value: the zeros removed are the exponent gained. -/
theorem stripZeros_value (fuel m : ℕ) (e : ℤ) (hf : m < fuel) (hm : m ≠ 0) :
    ∃ j : ℕ, m = (stripZeros fuel m e).1*10^j ∧ (stripZeros fuel m e).2 = e+j := by
  induction fuel generalizing m e with
  | zero => omega
  | succ fuel ih =>
    simp only [stripZeros, hm, ↓reduceIte]
    split_ifs with h10
    · obtain ⟨j, h1, h2⟩ := ih (m/10) (e+1) (by omega) (by omega)
      refine ⟨j+1, ?_, by rw [h2]; push_cast; ring⟩
      conv_lhs => rw [show m = m/10*10 by omega, h1]
      ring
    · exact ⟨0, by simp, by simp⟩

theorem stripZeros_normal (fuel m : ℕ) (e : ℤ) (hf : m < fuel) :
    (stripZeros fuel m e).1%10 ≠ 0 ∨ stripZeros fuel m e = (0, 0) := by
  induction fuel generalizing m e with
  | zero => omega
  | succ fuel ih =>
    simp only [stripZeros]
    split_ifs with h0 h10
    · exact Or.inr rfl
    · exact ih (m/10) (e+1) (by omega)
    · exact Or.inl h10

/-- Scaling a significand without trailing zeros is undone by stripping. -/
theorem stripZeros_scale (fuel s j : ℕ) (e : ℤ) (hs : s%10 ≠ 0) (hf : s*10^j < fuel) :
    stripZeros fuel (s*10^j) e = (s, e+j) := by
  induction j generalizing fuel e with
  | zero =>
    obtain ⟨fuel, rfl⟩ : ∃ f, fuel = f+1 := ⟨fuel-1, by omega⟩
    have h0 : s ≠ 0 := by rintro rfl; exact hs rfl
    simp [stripZeros, h0, hs]
  | succ j ih =>
    obtain ⟨fuel, rfl⟩ : ∃ f, fuel = f+1 := ⟨fuel-1, by omega⟩
    have hm : s*10^(j+1) = (s*10^j)*10 := by ring
    have h0 : s ≠ 0 := by rintro rfl; exact hs rfl
    have hp : 0 < s*10^j := Nat.mul_pos (Nat.pos_of_ne_zero h0) (Nat.pow_pos (by omega))
    rw [hm] at hf ⊢
    have hne : s*10^j*10 ≠ 0 := by omega
    simp only [stripZeros, hne, Nat.mul_mod_left, ↓reduceIte, Nat.mul_div_left _ (show 0 < 10 by omega)]
    rw [ih fuel (e+1) (by omega)]
    push_cast
    ring_nf

/-- A finite number `±digits·10^exp` in its only form without trailing zeros. -/
structure Decimal where
  neg : Bool
  digits : ℕ
  exp : ℤ
  normal : digits%10 ≠ 0 ∨ (digits = 0 ∧ exp = 0)
deriving DecidableEq

namespace Decimal

@[ext] theorem ext {a b : Decimal} (hn : a.neg = b.neg) (hd : a.digits = b.digits)
    (he : a.exp = b.exp) : a = b := by
  cases a; cases b; simp_all

/-- The decimal of value `±m·10^e`. -/
def ofScaled (neg : Bool) (m : ℕ) (e : ℤ) : Decimal where
  neg := neg
  digits := (stripZeros (m+1) m e).1
  exp := (stripZeros (m+1) m e).2
  normal := by
    rcases stripZeros_normal (m+1) m e (by omega) with h | h
    · exact Or.inl h
    · exact Or.inr (by rw [h]; exact ⟨rfl, rfl⟩)

theorem ofScaled_zero (neg : Bool) (e : ℤ) : ofScaled neg 0 e = ⟨neg, 0, 0, Or.inr ⟨rfl, rfl⟩⟩ := by
  simp [ofScaled, stripZeros]

/-- Every nonzero decimal is its own significand scaled back. -/
theorem ofScaled_digits (d : Decimal) (j : ℕ) (hd : d.digits ≠ 0) :
    ofScaled d.neg (d.digits*10^j) (d.exp-j) = d := by
  have hn : d.digits%10 ≠ 0 := d.normal.resolve_right (fun h => hd h.1)
  have hs := stripZeros_scale (d.digits*10^j+1) d.digits j (d.exp-j) hn (by omega)
  apply Decimal.ext
  · rfl
  · exact congrArg Prod.fst hs
  · have := congrArg Prod.snd hs
    simpa [ofScaled] using this

/-- Two scales of one value have one normal form. -/
theorem ofScaled_mul_pow (neg : Bool) (m j : ℕ) (e : ℤ) :
    ofScaled neg (m*10^j) e = ofScaled neg m (e+j) := by
  rcases Nat.eq_zero_or_pos m with rfl | hm
  · rw [zero_mul, ofScaled_zero, ofScaled_zero]
  · obtain ⟨i, hi, he⟩ := stripZeros_value (m+1) m (e+j) (by omega) (by omega)
    set d := ofScaled neg m (e+j) with hd
    change m = d.digits*10^i at hi
    change d.exp = e+j+i at he
    have hd0 : d.digits ≠ 0 := by
      intro h0
      rw [h0, zero_mul] at hi
      omega
    have hscale := ofScaled_digits d (i+j) hd0
    have hexp : d.exp-((i+j : ℕ) : ℤ) = e := by push_cast; omega
    rwa [hexp, pow_add, ← mul_assoc, ← hi] at hscale

def ofNat (n : ℕ) : Decimal := ofScaled false n 0

/-- The value `digits·10^exp` of a natural number has a nonnegative exponent. -/
theorem ofNat_spec (n : ℕ) : (ofNat n).neg = false ∧ 0 ≤ (ofNat n).exp ∧
    n = (ofNat n).digits*10^(ofNat n).exp.toNat := by
  rcases Nat.eq_zero_or_pos n with rfl | hn
  · simp [ofNat, ofScaled_zero]
  · obtain ⟨j, hj, he⟩ := stripZeros_value (n+1) n 0 (by omega) (by omega)
    have hexp : (ofNat n).exp = j := by simpa [ofNat, ofScaled] using he
    refine ⟨rfl, by omega, ?_⟩
    rw [hexp, Int.toNat_natCast]
    exact hj

/-- The signed significand. -/
def mantissa (d : Decimal) : ℤ := if d.neg then -(d.digits : ℤ) else d.digits

/-- IEEE addition; a zero sum is negative only when both summands are. -/
def add (a b : Decimal) : Decimal :=
  let e := min a.exp b.exp
  let m := a.mantissa*10^(a.exp-e).toNat + b.mantissa*10^(b.exp-e).toNat
  ofScaled (if m = 0 then a.neg && b.neg else m < 0) m.natAbs e

theorem ofNat_add (m n : ℕ) : (ofNat m).add (ofNat n) = ofNat (m+n) := by
  obtain ⟨hmn, hme, hm⟩ := ofNat_spec m
  obtain ⟨hnn, hne, hn⟩ := ofNat_spec n
  set a := ofNat m
  set b := ofNat n
  set e := min a.exp b.exp with he
  set k := a.digits*10^(a.exp-e).toNat+b.digits*10^(b.exp-e).toNat with hk
  have he0 : 0 ≤ e := le_min hme hne
  have hpow (x : ℤ) (hx : e ≤ x) : 10^x.toNat = 10^(x-e).toNat*10^e.toNat := by
    rw [← pow_add]; congr 1; omega
  have hsum : m+n = k*10^e.toNat := by
    conv_lhs => rw [hm, hn, hpow a.exp (min_le_left _ _), hpow b.exp (min_le_right _ _)]
    ring
  have hmant : a.mantissa*10^(a.exp-e).toNat + b.mantissa*10^(b.exp-e).toNat = (k : ℤ) := by
    simp [mantissa, hmn, hnn, hk]
  have hlt : ¬ (k : ℤ) < 0 := by omega
  have hadd : a.add b = ofScaled false k e := by
    simp only [add, ← he, hmant, hmn, hnn, Int.natAbs_natCast, hlt, decide_false, Bool.and_self,
      ite_self]
  rw [hadd, ofNat, hsum, ofScaled_mul_pow, zero_add, Int.toNat_of_nonneg he0]

/-- `-0` reads back as `0`. -/
def posZero (d : Decimal) : Decimal :=
  if d.digits = 0 then ⟨false, 0, 0, Or.inr ⟨rfl, rfl⟩⟩ else d

end Decimal

/-- A JavaScript number. -/
inductive JsNumber
  | nan
  | inf (neg : Bool)
  | fin (d : Decimal)
deriving DecidableEq

namespace JsNumber

def ofNat (n : ℕ) : JsNumber := .fin (.ofNat n)

def isFinite : JsNumber → Bool
  | .fin _ => true
  | _ => false

/-- The operator `+` on numbers. -/
def add : JsNumber → JsNumber → JsNumber
  | .fin a, .fin b => .fin (a.add b)
  | .inf s, .fin _ => .inf s
  | .fin _, .inf s => .inf s
  | .inf s, .inf t => if s = t then .inf s else .nan
  | _, _ => .nan

/-- The operator `===` on numbers: `NaN` differs from itself and the zeros agree. -/
def strictEq : JsNumber → JsNumber → Bool
  | .fin a, .fin b => a = b || (a.digits = 0 && b.digits = 0)
  | .inf s, .inf t => s = t
  | _, _ => false

@[simp] theorem ofNat_add (m n : ℕ) : (ofNat m).add (ofNat n) = ofNat (m+n) :=
  congrArg JsNumber.fin (Decimal.ofNat_add m n)

@[simp] theorem strictEq_ofNat_self (n : ℕ) : (ofNat n).strictEq (ofNat n) = true := by
  simp [strictEq, ofNat]

end JsNumber

end Js
