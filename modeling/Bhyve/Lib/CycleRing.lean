import Mathlib.Data.Nat.ModEq

/- A ring of n cells whose values carry a cycle bit. The bit is 1 in the first pass over the ring
   and turns in each new pass, so a reader that follows knows where the writer stands. -/
namespace CycleRing
open Nat
variable {α : Type} {n k m : Nat}

/-- The bit of the value at a position, counted over all the passes. -/
def cycle (n k : Nat) : Bool := k / n % 2 == 0

theorem cycle_next_pass (positive : 0 < n) (k : Nat) : cycle n (k + n) = !cycle n k := by
  simp only [cycle, add_div_right k positive]
  grind

theorem cycle_first (first : k < n) : cycle n k = true := by
  simp [cycle, div_eq_of_lt first]

theorem next_pass (wraps : (k + 1) % n = 0) : (k + 1) / n = k / n + 1 :=
  succ_div_of_mod_eq_zero wraps

theorem cycle_wraps (wraps : (k + 1) % n = 0) : cycle n (k + 1) = !cycle n k := by
  simp only [cycle, next_pass wraps]
  grind

theorem cycle_stays (inside : (k + 1) % n ≠ 0) : cycle n (k + 1) = cycle n k := by
  simp only [cycle, succ_div_of_mod_ne_zero inside]

theorem cells_apart (before : k < m) (near : m < k + n) : k % n ≠ m % n := by
  intro same
  have divides : n ∣ m - k := (modEq_iff_dvd' before.le).mp same
  have whole := le_of_dvd (by omega) divides
  omega

theorem cell_after (near : m < n) : (k + m) % n = if k % n + m < n then k % n + m else k % n + m - n := by
  have inside := mod_lt k (zero_lt_of_lt near)
  rw [add_mod, mod_eq_of_lt near]
  split
  · next short => exact mod_eq_of_lt short
  · rw [mod_eq_sub_mod (by omega), mod_eq_of_lt (by omega)]

/-- The cells after the values of the first m positions are written: each holds the last value
    written to it, and those not written yet do not carry the bit of the first pass. -/
structure Holds (n : Nat) (cell value : Nat → α) (bit : α → Bool) (m : Nat) : Prop where
  latest : ∀ k, k < m → m ≤ k + n → cell (k % n) = value k
  fresh : ∀ j, m ≤ j → j < n → bit (cell j) = false

variable {cell value : Nat → α} {bit : α → Bool}

theorem holds_congr {cell' value' : Nat → α} (holds : Holds n cell value bit m)
    (cells : ∀ j, j < n → cell' j = cell j) (values : ∀ k, k < m → value' k = value k)
    (positive : 0 < n) : Holds n cell' value' bit m where
  latest := by
    intro k below near
    rw [cells _ (mod_lt k positive), values k below]
    exact holds.latest k below near
  fresh := by
    intro j above inside
    rw [cells j inside]
    exact holds.fresh j above inside

theorem holds_write (holds : Holds n cell value bit m) {cell' : Nat → α} (positive : 0 < n)
    (written : cell' (m % n) = value m) (others : ∀ j, j < n → j ≠ m % n → cell' j = cell j) :
    Holds n cell' value bit (m + 1) where
  latest := by
    intro k below near
    rcases Nat.lt_succ_iff_lt_or_eq.mp below with before | rfl
    · rw [others _ (mod_lt k positive) (cells_apart before (by omega))]
      exact holds.latest k before (by omega)
    · exact written
  fresh := by
    intro j above inside
    have apart : j ≠ m % n := by
      rw [mod_eq_of_lt (by omega)]
      omega
    rw [others j inside apart]
    exact holds.fresh j (by omega) inside

/-- A reader that has read all there is finds the bit of the pass before. -/
theorem holds_stops (holds : Holds n cell value bit m) (positive : 0 < n)
    (bits : ∀ k, k < m → bit (value k) = cycle n k) : bit (cell (m % n)) ≠ cycle n m := by
  rcases Nat.lt_or_ge m n with first | later
  · rw [mod_eq_of_lt first, holds.fresh m le_rfl first, cycle_first first]
    decide
  · obtain ⟨k, rfl⟩ := Nat.exists_eq_add_of_le' later
    rw [add_mod_right, holds.latest k (by omega) le_rfl, bits k (by omega),
      cycle_next_pass positive]
    simp

end CycleRing
