import Mathlib.Data.BitVec

/-!
The one's-complement sum of a string of bytes, taken as words of 16 bits with the low byte first.
Two sums are the same if they differ by a multiple of 65535 and are zero together.
-/
namespace OnesComplement

def wordSum : List (BitVec 8) → Nat
  | lo :: hi :: rest => lo.toNat + 256 * hi.toNat + wordSum rest
  | [b] => b.toNat
  | [] => 0

def fold (n : Nat) : Nat := if n = 0 then 0 else (n - 1) % 65535 + 1

def Same (m n : Nat) : Prop := m % 65535 = n % 65535 ∧ (m = 0 ↔ n = 0)

theorem same_refl (n : Nat) : Same n n := ⟨rfl, Iff.rfl⟩

variable {m n : Nat}

theorem same_symm (same : Same m n) : Same n m := ⟨same.1.symm, same.2.symm⟩

theorem same_trans {l : Nat} (first : Same l m) (second : Same m n) : Same l n :=
  ⟨first.1.trans second.1, first.2.trans second.2⟩

theorem same_add {k l : Nat} (first : Same k l) (second : Same m n) : Same (k + m) (l + n) := by
  obtain ⟨first, none_first⟩ := first
  obtain ⟨second, none_second⟩ := second
  refine ⟨?_, by omega⟩
  rw [Nat.add_mod, first, second, ← Nat.add_mod]

theorem same_shift (same : Same m n) : Same (256 * m) (256 * n) := by
  obtain ⟨same, none_same⟩ := same
  refine ⟨?_, by omega⟩
  rw [Nat.mul_mod, same, ← Nat.mul_mod]

theorem same_twice (n : Nat) : Same (256 * (256 * n)) n := by
  refine ⟨?_, by omega⟩
  omega

theorem word_sum_cons (bytes : List (BitVec 8)) :
    ∀ b : BitVec 8, Same (wordSum (b :: bytes)) (b.toNat + 256 * wordSum bytes) := by
  induction bytes with
  | nil => exact fun b => same_refl _
  | cons c rest ih =>
    intro b
    have swapped := same_shift (ih c)
    have whole : Same (256 * (c.toNat + 256 * wordSum rest)) (256 * c.toNat + wordSum rest) := by
      rw [Nat.mul_add]
      exact same_add (same_refl _) (same_twice _)
    have each := same_add (same_refl b.toNat) (same_trans swapped whole)
    rw [← Nat.add_assoc] at each
    exact same_symm each

def shifted (odd : Bool) (n : Nat) : Nat := if odd then 256 * n else n

theorem shifted_same {odd : Bool} {m n : Nat} (same : Same m n) :
    Same (shifted odd m) (shifted odd n) := by
  cases odd
  · exact same
  · exact same_shift same

theorem shifted_shifted (first second : Bool) (n : Nat) :
    Same (shifted first (shifted second n)) (shifted (first ^^ second) n) := by
  cases first <;> cases second
  · exact same_refl _
  · exact same_refl _
  · exact same_refl _
  · exact same_twice n

theorem shifted_add (odd : Bool) (m n : Nat) :
    shifted odd (m + n) = shifted odd m + shifted odd n := by
  cases odd
  · rfl
  · exact Nat.mul_add 256 m n

theorem word_sum_append (first second : List (BitVec 8)) : Same (wordSum (first ++ second))
      (wordSum first + shifted (decide (first.length % 2 = 1)) (wordSum second)) := by
  induction first with
  | nil => simpa [wordSum, shifted] using same_refl _
  | cons b first ih =>
    have parity : decide ((b :: first).length % 2 = 1) =
        (true ^^ decide (first.length % 2 = 1)) := by
      by_cases odd : first.length % 2 = 1
      · simp [odd, Nat.succ_mod_two_eq_one_iff]
      · have even : first.length % 2 = 0 := by omega
        simp [even, Nat.succ_mod_two_eq_one_iff]
    have inner := same_shift ih
    rw [Nat.mul_add] at inner
    have swap : Same (256 * shifted (decide (first.length % 2 = 1)) (wordSum second))
        (shifted (decide ((b :: first).length % 2 = 1)) (wordSum second)) := by
      rw [parity]
      exact shifted_shifted true _ _
    have whole := same_trans (word_sum_cons (first ++ second) b)
      (same_add (same_refl b.toNat) (same_trans inner (same_add (same_refl _) swap)))
    rw [← Nat.add_assoc] at whole
    exact same_trans whole (same_add (same_symm (word_sum_cons first b)) (same_refl _))

theorem fold_same (same : Same m n) : fold m = fold n := by
  obtain ⟨same, none_same⟩ := same
  unfold fold
  by_cases zero : m = 0
  · rw [if_pos zero, if_pos (none_same.mp zero)]
  · rw [if_neg zero, if_neg (fun other => zero (none_same.mpr other))]
    omega

theorem same_fold (n : Nat) : Same (fold n) n := by
  unfold fold
  split
  · next zero => exact zero ▸ same_refl 0
  · refine ⟨by omega, by omega⟩

theorem fold_lt (n : Nat) : fold n < 65536 := by
  unfold fold
  split <;> omega

theorem eq_fold (same : Same m n) (short : m < 65536) : m = fold n := by
  obtain ⟨same, none_same⟩ := same
  unfold fold
  split <;> omega

theorem same_halves (n : Nat) : Same (n % 65536 + n / 65536) n := by
  have parts : n = n % 65536 + n / 65536 + 65535 * (n / 65536) := by omega
  refine ⟨?_, by omega⟩
  conv_rhs => rw [parts, Nat.add_mul_mod_self_left]

theorem same_less (more : 65535 < m) (same : Same m n) : Same (m - 65535) n := by
  obtain ⟨same, none_same⟩ := same
  constructor <;> omega

theorem same_of_fold (same : fold m = fold n) : Same m n := by
  have first := same_symm (same_fold m)
  rw [same] at first
  exact same_trans first (same_fold n)

theorem word_sum_le (bytes : List (BitVec 8)) : 2 * wordSum bytes ≤ 65535 * (bytes.length + 1) := by
  induction bytes using wordSum.induct with
  | case1 lo hi rest ih =>
    simp only [wordSum, List.length_cons]
    omega
  | case2 b =>
    simp only [wordSum, List.length_cons, List.length_nil]
    omega
  | case3 => exact Nat.zero_le _

theorem word_sum_ones (n : Nat) : wordSum (List.replicate (2 * n) 0xff) = 65535 * n := by
  induction n with
  | zero => rfl
  | succ n ih =>
    show 255 + 256 * 255 + wordSum (List.replicate (2 * n) 0xff) = _
    omega

end OnesComplement
