import Mathlib.Data.Nat.ModEq

/-!
How far it is from one place of a ring to another, going forward.
-/
namespace Rings

def distance (size i j : Nat) : Nat := (j + size - i) % size

variable {size i j : Nat}

theorem distance_lt (i j : Nat) (some : 0 < size) : distance size i j < size :=
  Nat.mod_lt _ some

theorem distance_eq (first : i < size) (second : j < size) :
    distance size i j = if i ≤ j then j - i else j + size - i := by
  unfold distance
  split
  · next before =>
    have turn : j + size - i = (j - i) + size := by omega
    rw [turn, Nat.add_mod_right, Nat.mod_eq_of_lt (by omega)]
  · rw [Nat.mod_eq_of_lt (by omega)]

theorem distance_next (first : i < size) (second : j < size) (apart : i ≠ j) :
    distance size ((i + 1) % size) j + 1 = distance size i j := by
  rw [distance_eq first second, distance_eq (Nat.mod_lt _ (by omega)) second]
  by_cases wraps : i + 1 = size
  · rw [wraps, Nat.mod_self]
    split <;> split <;> omega
  · rw [Nat.mod_eq_of_lt (by omega)]
    split <;> split <;> omega

end Rings
