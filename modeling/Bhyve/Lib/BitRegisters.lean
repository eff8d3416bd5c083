import Mathlib.Algebra.Group.Nat.Defs
import Mathlib.Logic.Function.Basic

/-!
A set of numbers kept in a bank of registers of w bits, number n at bit n % w of register
n / w, and the search for the highest number from the last register down.
-/
namespace BitRegisters
open BitVec Function Nat
variable {w : Nat}

def bit (reg : Nat → BitVec w) (n : Nat) : Bool := (reg (n / w)).getLsbD (n % w)

def setBit (reg : Nat → BitVec w) (n : Nat) : Nat → BitVec w :=
  update reg (n / w) (reg (n / w) ||| BitVec.twoPow w (n % w))

def clearBit (reg : Nat → BitVec w) (n : Nat) : Nat → BitVec w :=
  update reg (n / w) (reg (n / w) &&& ~~~BitVec.twoPow w (n % w))

/-- The place of the highest bit that is set, counted from 1, and 0 without one. -/
def fls (x : BitVec w) : Nat := if x = 0 then 0 else x.toNat.log2 + 1

def highest (reg : Nat → BitVec w) : Nat → Option Nat
  | 0 => none
  | i + 1 => if fls (reg i) ≠ 0 then some (i * w + (fls (reg i) - 1)) else highest reg i

theorem same_place {n m : Nat} (same : m / w = n / w) : n % w = m % w ↔ n = m := by
  constructor
  · intro rest
    rw [← div_add_mod n w, ← div_add_mod m w, same, rest]
  · rintro rfl
    rfl

theorem bit_set_bit (positive : 0 < w) (reg : Nat → BitVec w) (n m : Nat) :
    bit (setBit reg n) m = (decide (n = m) || bit reg m) := by
  unfold bit setBit
  by_cases same : m / w = n / w
  · rw [same, update_self, getLsbD_or, getLsbD_twoPow,
      decide_eq_true (mod_lt n positive), Bool.true_and, Bool.or_comm]
    simp only [same_place same]
  · have apart : n ≠ m := by
      rintro rfl
      exact same rfl
    rw [update_of_ne same, decide_eq_false apart, Bool.false_or]

theorem bit_clear_bit (positive : 0 < w) (reg : Nat → BitVec w) (n m : Nat) :
    bit (clearBit reg n) m = (bit reg m && !decide (n = m)) := by
  unfold bit clearBit
  by_cases same : m / w = n / w
  · rw [same, update_self, getLsbD_and, getLsbD_not,
      getLsbD_twoPow, decide_eq_true (mod_lt n positive), Bool.true_and,
      decide_eq_true (mod_lt m positive), Bool.true_and]
    simp only [same_place same]
  · have apart : n ≠ m := by
      rintro rfl
      exact same rfl
    rw [update_of_ne same, decide_eq_false apart, Bool.not_false, Bool.and_true]

theorem fls_zero {x : BitVec w} (none : fls x = 0) (i : Nat) : x.getLsbD i = false := by
  unfold fls at none
  split at none
  · next zero => rw [zero, ofNat_eq_ofNat, getLsbD_zero]
  · exact absurd none (succ_ne_zero _)

theorem fls_highest {x : BitVec w} (some_ : fls x ≠ 0) :
    fls x - 1 < w ∧ x.getLsbD (fls x - 1) = true ∧ ∀ i, fls x - 1 < i → x.getLsbD i = false := by
  have nonzero : x.toNat ≠ 0 := by
    intro zero
    have empty : x = 0 := eq_of_toNat_eq (by rw [zero]; rfl)
    exact some_ (if_pos empty)
  have place : fls x - 1 = x.toNat.log2 := by
    unfold fls at some_ ⊢
    split
    · next zero => exact absurd (if_pos zero) some_
    · exact Nat.add_sub_cancel _ 1
  have top : x.getLsbD x.toNat.log2 = true := testBit_log2 nonzero
  rw [place]
  refine ⟨lt_of_getLsbD top, top, fun i above => ?_⟩
  exact testBit_lt_two_pow (Nat.lt_of_lt_of_le lt_log2_self
    (Nat.pow_le_pow_right Nat.two_pos above))

variable {reg : Nat → BitVec w} {count : Nat}

theorem bit_in {i b : Nat} (inside : b < w) : bit reg (i * w + b) = (reg i).getLsbD b := by
  have positive : 0 < w := zero_lt_of_lt inside
  unfold bit
  rw [Nat.mul_comm, mul_add_div positive, div_eq_of_lt inside, Nat.add_zero,
    mul_add_mod, mod_eq_of_lt inside]

theorem highest_none (count : Nat) (none : highest reg count = none) :
    ∀ n < count * w, bit reg n = false := by
  induction count with
  | zero =>
    intro n below
    rw [Nat.zero_mul] at below
    exact absurd below (Nat.not_lt_zero n)
  | succ i ih =>
    intro n below
    unfold highest at none
    split at none
    · exact absurd none nofun
    · next empty =>
      by_cases earlier : n < i * w
      · exact ih none n earlier
      · have word : n / w = i := Nat.div_eq_of_lt_le (Nat.not_lt.mp earlier) below
        unfold bit
        rw [word]
        exact fls_zero (Classical.not_not.mp empty) _

theorem highest_some (count : Nat) {v : Nat} (found : highest reg count = some v) :
    v < count * w ∧ bit reg v = true ∧ ∀ n, v < n → n < count * w → bit reg n = false := by
  induction count with
  | zero => exact absurd found nofun
  | succ i ih =>
    unfold highest at found
    split at found
    · next nonzero =>
      obtain ⟨inside, top, above⟩ := fls_highest nonzero
      obtain rfl := Option.some.inj found
      refine ⟨?_, ?_, fun n later below => ?_⟩
      · rw [Nat.succ_mul]
        exact Nat.add_lt_add_left inside _
      · rw [bit_in inside]
        exact top
      · rw [Nat.succ_mul] at below
        obtain ⟨b, rfl⟩ := Nat.exists_eq_add_of_le (Nat.le_trans (Nat.le_add_right _ _)
          (Nat.le_of_lt later))
        rw [bit_in (Nat.lt_of_add_lt_add_left below)]
        exact above b (Nat.lt_of_add_lt_add_left later)
    · next empty =>
      obtain ⟨inside, top, above⟩ := ih found
      refine ⟨Nat.lt_of_lt_of_le inside (Nat.mul_le_mul_right w (le_succ i)), top,
        fun n later below => ?_⟩
      by_cases earlier : n < i * w
      · exact above n later earlier
      · have word : n / w = i := Nat.div_eq_of_lt_le (Nat.not_lt.mp earlier) below
        unfold bit
        rw [word]
        exact fls_zero (Classical.not_not.mp empty) _

def top (reg : Nat → BitVec w) (count : Nat) : Nat := (highest reg count).getD 0

theorem le_top {n : Nat} (inside : n < count * w) (member : bit reg n = true) :
    n ≤ top reg count := by
  unfold top
  cases found : highest reg count with
  | none =>
    have absent := highest_none count found n inside
    rw [member] at absent
    cases absent
  | some v =>
    obtain ⟨-, -, above⟩ := highest_some count found
    apply Nat.not_lt.mp
    intro later
    have absent := above n later inside
    rw [member] at absent
    cases absent

theorem top_member (positive : 0 < top reg count) :
    top reg count < count * w ∧ bit reg (top reg count) = true := by
  unfold top at positive ⊢
  cases found : highest reg count with
  | none =>
    rw [found] at positive
    exact absurd positive (Nat.lt_irrefl 0)
  | some v =>
    obtain ⟨inside, member, -⟩ := highest_some count found
    exact ⟨inside, member⟩

theorem top_unique {t : Nat} (upper : ∀ n < count * w, bit reg n = true → n ≤ t)
    (own : 0 < t → t < count * w ∧ bit reg t = true) : top reg count = t := by
  apply Nat.le_antisymm
  · by_cases positive : 0 < top reg count
    · obtain ⟨inside, member⟩ := top_member positive
      exact upper _ inside member
    · exact Nat.le_trans (Nat.not_lt.mp positive) (Nat.zero_le t)
  · by_cases positive : 0 < t
    · obtain ⟨inside, member⟩ := own positive
      exact le_top inside member
    · exact Nat.le_trans (Nat.not_lt.mp positive) (Nat.zero_le _)

theorem top_union {u : Nat} {reg a : Nat → BitVec w} {b : Nat → BitVec u} {count other : Nat}
    (same : other * u = count * w) (union : ∀ n < count * w, bit reg n = (bit a n || bit b n)) :
    top reg count = max (top a count) (top b other) := by
  apply top_unique
  · intro n inside member
    rw [union n inside, Bool.or_eq_true] at member
    obtain first | second := member
    · exact Nat.le_trans (le_top inside first) (Nat.le_max_left ..)
    · exact Nat.le_trans (le_top (same ▸ inside) second) (Nat.le_max_right ..)
  · intro positive
    by_cases order : top a count ≤ top b other
    · rw [Nat.max_eq_right order] at positive ⊢
      obtain ⟨inside, member⟩ := top_member positive
      rw [same] at inside
      exact ⟨inside, by rw [union _ inside, member, Bool.or_true]⟩
    · rw [Nat.max_eq_left (Nat.le_of_not_le order)] at positive ⊢
      obtain ⟨inside, member⟩ := top_member positive
      exact ⟨inside, by rw [union _ inside, member, Bool.true_or]⟩

end BitRegisters
