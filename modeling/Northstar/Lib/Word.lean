import Mathlib

/-! # Masks of 64-bit words

Machine words are natural numbers, and the only bit operation that natural numbers lack is the
complement. `not64 m` is the complement of `m` in a word of 64 bits; masking with the complement
of `2 ^ k - 1` rounds a word down to a multiple of `2 ^ k`. -/

namespace Northstar

/-- The complement of `m` in a word of 64 bits. -/
def not64 (m : ℕ) : ℕ := 2 ^ 64 - 1 - m

/-- The bits of the complement of a low mask are those at or above it. -/
lemma testBit_not64_mask (k i : ℕ) :
    (not64 (2 ^ k - 1)).testBit i = (decide (i < 64) && decide (k ≤ i)) := by
  rcases Nat.lt_or_ge k 64 with h | h
  · have hlt : 2 ^ k - 1 < 2 ^ 64 :=
      lt_of_le_of_lt (Nat.sub_le _ _) (Nat.pow_lt_pow_right (by omega) h)
    have heq : not64 (2 ^ k - 1) = 2 ^ 64 - (2 ^ k - 1 + 1) := by unfold not64; omega
    rw [heq, Nat.testBit_two_pow_sub_succ hlt, Nat.testBit_two_pow_sub_one]
    simp [← decide_not]
  · have hle : 2 ^ 64 ≤ 2 ^ k := Nat.pow_le_pow_right (by omega) h
    have heq : not64 (2 ^ k - 1) = 0 := by unfold not64; omega
    rw [heq, Nat.zero_testBit]
    simp
    omega

/-- Masking with the complement of a low mask rounds down to a multiple of a power of two. -/
lemma and_not64_mask (x k : ℕ) : x &&& not64 (2 ^ k - 1) = x % 2 ^ 64 / 2 ^ k * 2 ^ k := by
  refine Nat.eq_of_testBit_eq fun i => ?_
  rw [Nat.testBit_and, testBit_not64_mask, Nat.testBit_mul_two_pow, Nat.testBit_div_two_pow,
    Nat.testBit_mod_two_pow]
  by_cases hk : k ≤ i
  · rw [Nat.sub_add_cancel hk]
    simp [hk, Bool.and_comm]
  · simp [hk]

/-- A nonzero word that shares no bit with its predecessor is a power of two. -/
lemma exists_two_pow_of_and_pred {n : ℕ} (hn : n ≠ 0) (h : n &&& (n - 1) = 0) :
    ∃ k, n = 2 ^ k :=
  (Nat.and_sub_one_eq_zero_iff_isPowerOfTwo hn).mp h

end Northstar
