import Mathlib.Logic.Function.Basic

/- Loops over the entries of a sequence, lowest first: n entries copied from s on to d on, and n
   entries set to one value. A copy to lower entries moves them; a copy to higher ones repeats the
   entries between the two places. -/
namespace RowShifts
open Function
variable {α : Type}

def shift : Nat → Nat → Nat → (Nat → α) → Nat → α
  | 0, _, _, f => f
  | n + 1, d, s, f => shift n (d + 1) (s + 1) (update f d (f s))

def fill (v : α) : Nat → Nat → (Nat → α) → Nat → α
  | 0, _, f => f
  | n + 1, d, f => fill v n (d + 1) (update f d v)

theorem shift_lower (n : Nat) : ∀ (d k : Nat) (f : Nat → α) (r : Nat),
    shift n d (d + k) f r = if d ≤ r ∧ r < d + n then f (r + k) else f r := by
  induction n with
  | zero =>
    intro d k f r
    rw [shift, if_neg (by omega)]
  | succ n ih =>
    intro d k f r
    rw [shift, Nat.add_right_comm d k 1, ih]
    by_cases later : d + 1 ≤ r ∧ r < d + 1 + n
    · rw [if_pos later, if_pos (by omega), update_of_ne (by omega)]
    · rw [if_neg later]
      by_cases here : r = d
      · rw [here, update_self, if_pos (by omega)]
      · rw [update_of_ne here, if_neg (by omega)]

theorem shift_higher (n : Nat) : ∀ (s k : Nat) (f : Nat → α) (r : Nat), 0 < k →
    shift n (s + k) s f r = if s + k ≤ r ∧ r < s + k + n then f (s + (r - s) % k) else f r := by
  induction n with
  | zero =>
    intro s k f r _
    rw [shift, if_neg (by omega)]
  | succ n ih =>
    intro s k f r ahead
    rw [shift, Nat.add_right_comm s k 1, ih (s + 1) k _ r ahead]
    by_cases later : s + 1 + k ≤ r ∧ r < s + 1 + k + n
    · rw [if_pos later, if_pos (by omega)]
      have cycle : (r - s) % k = ((r - (s + 1)) % k + 1) % k := by
        rw [Nat.mod_add_mod]
        congr 1
        omega
      have small : (r - (s + 1)) % k < k := Nat.mod_lt _ ahead
      rw [cycle]
      -- The entry before the next repetition is the one just written: it holds the entry at s.
      by_cases last : (r - (s + 1)) % k + 1 = k
      · rw [last, Nat.mod_self, Nat.add_zero, Nat.add_right_comm, Nat.add_assoc, last]
        exact update_self ..
      · have next : ((r - (s + 1)) % k + 1) % k = (r - (s + 1)) % k + 1 :=
          Nat.mod_eq_of_lt (by omega)
        rw [next, update_of_ne (by omega), Nat.add_assoc, Nat.add_comm 1]
    · rw [if_neg later]
      by_cases here : r = s + k
      · have first : (s + k - s) % k = 0 := by rw [Nat.add_sub_cancel_left, Nat.mod_self]
        rw [here, update_self, if_pos (by omega), first, Nat.add_zero]
      · rw [update_of_ne here, if_neg (by omega)]

theorem fill_apply (v : α) (n : Nat) : ∀ (d : Nat) (f : Nat → α) (r : Nat),
    fill v n d f r = if d ≤ r ∧ r < d + n then v else f r := by
  induction n with
  | zero =>
    intro d f r
    rw [fill, if_neg (by omega)]
  | succ n ih =>
    intro d f r
    rw [fill, ih]
    by_cases later : d + 1 ≤ r ∧ r < d + 1 + n
    · rw [if_pos later, if_pos (by omega)]
    · rw [if_neg later]
      by_cases here : r = d
      · rw [here, update_self, if_pos (by omega)]
      · rw [update_of_ne here, if_neg (by omega)]

end RowShifts
