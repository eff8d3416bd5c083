import Mathlib.Data.BitVec

/-!
The mask that clears the low bits of a word, and what it leaves: the size, a power of two, less one,
inverted.
-/
namespace AlignedWords
open BitVec
variable {w k : Nat} {x : BitVec w}

theorem get_low_ones (inside : k < w) (i : Nat) :
    (BitVec.twoPow w k - 1).getLsbD i = decide (i < k) := by
  have value : BitVec.twoPow w k - 1 = BitVec.ofNat w (2 ^ k - 1) := by
    apply eq_of_toNat_eq
    have one : 1 < 2 ^ w := Nat.one_lt_two_pow (by omega)
    have positive := Nat.two_pow_pos k
    rw [toNat_sub, toNat_twoPow_of_lt inside, toNat_ofNat,
      show (1 : BitVec w).toNat = 1 from toNat_one (by omega)]
    rw [show 2 ^ w - 1 + 2 ^ k = 2 ^ w + (2 ^ k - 1) by omega, Nat.add_mod_left]
  rw [value, getLsbD_ofNat, Nat.testBit_two_pow_sub_one]
  by_cases low : i < k
  · simp [low, Nat.lt_trans low inside]
  · simp [low]

theorem get_floor (inside : k < w) (x : BitVec w) (i : Nat) :
    (x &&& ~~~(BitVec.twoPow w k - 1)).getLsbD i = (x.getLsbD i && decide (k ≤ i)) := by
  rw [getLsbD_and, getLsbD_not, get_low_ones inside]
  by_cases bound : i < w
  · by_cases low : i < k
    · simp [low]
    · simp [bound, low, Nat.not_lt.mp low]
  · simp [getLsbD_of_ge x i (Nat.not_lt.mp bound)]

theorem floor_toNat (inside : k < w) (x : BitVec w) :
    (x &&& ~~~(BitVec.twoPow w k - 1)).toNat = x.toNat / 2 ^ k * 2 ^ k := by
  have shifted : x &&& ~~~(BitVec.twoPow w k - 1) = (x >>> k) <<< k := by
    apply eq_of_getLsbD_eq
    intro i bound
    rw [get_floor inside, getLsbD_shiftLeft, getLsbD_ushiftRight]
    by_cases low : i < k
    · simp [low]
    · simp [low, bound, Nat.not_lt.mp low]
  rw [shifted, toNat_shiftLeft, toNat_ushiftRight, Nat.shiftRight_eq_div_pow,
    Nat.shiftLeft_eq, Nat.mod_eq_of_lt]
  exact Nat.lt_of_le_of_lt (Nat.div_mul_le_self _ _) x.isLt

theorem roundup_bounds {n : Nat} (positive : 0 < n) (x : Nat) :
    x ≤ (x + (n - 1)) / n * n ∧ (x + (n - 1)) / n * n ≤ x + (n - 1) := by
  have parts := Nat.div_add_mod' (x + (n - 1)) n
  have rest := Nat.mod_lt (x + (n - 1)) positive
  omega

theorem twoPow_of_and_pred (power : x &&& (x - 1) = 0) (some_bit : x ≠ 0) :
    ∃ k < w, x = BitVec.twoPow w k := by
  have positive : 0 < x.toNat := by
    rcases Nat.eq_zero_or_pos x.toNat with zero | positive
    · exact absurd (eq_of_toNat_eq zero) some_bit
    · exact positive
  have wide : 0 < w := by
    rcases Nat.eq_zero_or_pos w with rfl | wide
    · exact absurd (Subsingleton.elim x 0) some_bit
    · exact wide
  have one : (1 : BitVec w).toNat = 1 := toNat_one wide
  have pred : (x - 1).toNat = x.toNat - 1 := by
    rw [toNat_sub_of_le, one]
    rw [le_def, one]
    exact positive
  have nat := congrArg BitVec.toNat power
  rw [toNat_and, pred] at nat
  obtain ⟨k, value⟩ := (Nat.and_sub_one_eq_zero_iff_isPowerOfTwo (Nat.ne_of_gt positive)).mp nat
  have inside : k < w := by
    have small := x.isLt
    rw [value] at small
    exact (Nat.pow_lt_pow_iff_right (by decide)).mp small
  exact ⟨k, inside, eq_of_toNat_eq (by rw [value, toNat_twoPow_of_lt inside])⟩

end AlignedWords
