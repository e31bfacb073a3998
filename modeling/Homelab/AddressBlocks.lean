import Mathlib.Data.Nat.Basic
import Mathlib.Algebra.Order.Group.Nat
import Mathlib.Tactic.Ring

/-! Blocks of `2^k` addresses that start at a multiple of `2^k`, and when smaller or
larger blocks cover one. -/
namespace Net

/-- A block of `2^bits` addresses, named by one of them. -/
structure Block where
  addr : ℕ
  bits : ℕ
deriving DecidableEq

def Block.Mem (b : Block) (x : ℕ) : Prop := x/2^b.bits = b.addr/2^b.bits

instance (b : Block) (x : ℕ) : Decidable (b.Mem x) := inferInstanceAs (Decidable (_ = _))

/-- `b` is the `2^k` addresses from `a` on, or more. -/
def Block.includes (b : Block) (a k : ℕ) : Bool := k ≤ b.bits && decide (b.Mem a)

/-- The `2^k` addresses from `a` on can be cut into halves until each piece lies in one
of the blocks or is a single address to skip. -/
def tiled (blocks : List Block) (skip : ℕ → Bool) : ℕ → ℕ → Bool
  | 0, a => skip a || blocks.any (·.includes a 0)
  | k+1, a => blocks.any (·.includes a (k+1)) ||
      (tiled blocks skip k a && tiled blocks skip k (a+2^k))

/-- Dividing out a larger power of two does not see the position inside a piece. -/
theorem div_pow_of_piece {a k j x : ℕ} (ha : a%2^k = 0) (hkj : k ≤ j) (h1 : a ≤ x)
    (h2 : x < a+2^k) : x/2^j = a/2^j := by
  have hpos : 0 < 2^k := Nat.two_pow_pos k
  have hk : x/2^k = a/2^k := by
    obtain ⟨q, rfl⟩ := Nat.dvd_of_mod_eq_zero ha
    obtain ⟨r, rfl⟩ := Nat.exists_eq_add_of_le h1
    rw [Nat.mul_add_div hpos, Nat.mul_div_cancel_left q hpos, Nat.div_eq_of_lt (by omega),
      Nat.add_zero]
  have hsplit (y : ℕ) : y/2^j = y/2^k/2^(j-k) := by
    rw [Nat.div_div_eq_div_mul, ← pow_add, Nat.add_sub_cancel' hkj]
  rw [hsplit x, hsplit a, hk]

theorem mem_of_includes {b : Block} {a k x : ℕ} (ha : a%2^k = 0) (h : b.includes a k = true)
    (h1 : a ≤ x) (h2 : x < a+2^k) : b.Mem x := by
  simp only [Block.includes, Bool.and_eq_true, decide_eq_true_eq] at h
  exact (div_pow_of_piece ha h.1 h1 h2).trans h.2

/-- Cutting into halves decides whether every address of the piece is covered. -/
theorem tiled_iff (blocks : List Block) (skip : ℕ → Bool) (k a : ℕ) (ha : a%2^k = 0) :
    tiled blocks skip k a = true ↔
      ∀ x, a ≤ x → x < a+2^k → skip x = true ∨ ∃ b ∈ blocks, b.Mem x := by
  induction k generalizing a with
  | zero =>
    simp only [tiled, Bool.or_eq_true, List.any_eq_true]
    constructor
    · intro h x h1 h2
      obtain rfl : x = a := by omega
      rcases h with h | ⟨b, hb, hinc⟩
      · exact Or.inl h
      · exact Or.inr ⟨b, hb, mem_of_includes ha hinc le_rfl (by omega)⟩
    · intro h
      rcases h a le_rfl (by omega) with h | ⟨b, hb, hmem⟩
      · exact Or.inl h
      · refine Or.inr ⟨b, hb, ?_⟩
        simp only [Block.includes, hmem, decide_true, Bool.and_true, decide_eq_true_eq]
        omega
  | succ k ih =>
    have hhalf : a%2^k = 0 := by
      apply Nat.mod_eq_zero_of_dvd
      exact dvd_trans ⟨2, by rw [pow_succ]⟩ (Nat.dvd_of_mod_eq_zero ha)
    have hhalf' : (a+2^k)%2^k = 0 := by rw [Nat.add_mod_right, hhalf]
    have hdouble : 2^(k+1) = 2^k+2^k := by ring
    simp only [tiled, Bool.or_eq_true, Bool.and_eq_true, List.any_eq_true, ih a hhalf,
      ih (a+2^k) hhalf']
    constructor
    · intro h x h1 h2
      rcases h with ⟨b, hb, hinc⟩ | ⟨hleft, hright⟩
      · exact Or.inr ⟨b, hb, mem_of_includes ha hinc h1 h2⟩
      · rcases Nat.lt_or_ge x (a+2^k) with hx | hx
        · exact hleft x h1 hx
        · exact hright x hx (by omega)
    · intro h
      exact Or.inr ⟨fun x h1 h2 => h x h1 (by omega), fun x h1 h2 => h x (by omega) (by omega)⟩

end Net
