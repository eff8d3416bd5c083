import Mathlib.Data.List.Basic

/-!
Counting through periods of uneven length: period n has len n units, and a unit is given by the
number of those before it, or by its period and its place there.
-/
namespace Periods
variable (len : Nat → Nat)

def before : Nat → Nat
  | 0 => 0
  | n + 1 => before n + len n

/-- Whole periods are subtracted from period n on, as long as there are any and fuel lasts. -/
def split : (fuel n rest : Nat) → Nat × Nat
  | 0, n, rest => (n, rest)
  | fuel + 1, n, rest => if len n ≤ rest then split fuel (n + 1) (rest - len n) else (n, rest)

variable {len}

theorem split_place (positive : ∀ n, 0 < len n) (fuel n rest : Nat) (enough : rest ≤ fuel) :
    (split len fuel n rest).2 < len (split len fuel n rest).1 ∧
      before len (split len fuel n rest).1 + (split len fuel n rest).2 = before len n + rest := by
  induction fuel generalizing n rest with
  | zero =>
    have none : rest = 0 := Nat.le_zero.mp enough
    subst none
    exact ⟨positive n, rfl⟩
  | succ fuel ih =>
    unfold split
    split
    · next whole =>
      have some_ := positive n
      obtain ⟨inside, same⟩ := ih (n + 1) (rest - len n) (by omega)
      refine ⟨inside, same.trans ?_⟩
      rw [before]
      omega
    · next part => exact ⟨Nat.not_le.mp part, rfl⟩

theorem before_le {n m : Nat} (order : n ≤ m) : before len n ≤ before len m := by
  induction order with
  | refl => exact Nat.le_refl _
  | step _ ih => exact Nat.le_trans ih (Nat.le_add_right _ _)

theorem before_whole {n m r : Nat} (inside : r < len n) (order : n < m) :
    before len n + r < before len m := by
  have next := @before_le len _ _ order
  rw [before] at next
  omega

theorem place_unique {n m r s : Nat} (first : r < len n) (second : s < len m)
    (same : before len n + r = before len m + s) : n = m ∧ r = s := by
  have equal : n = m := by
    apply Nat.le_antisymm
    · apply Nat.not_lt.mp
      intro later
      have less := before_whole second later
      omega
    · apply Nat.not_lt.mp
      intro earlier
      have less := before_whole first earlier
      omega
  subst equal
  exact ⟨rfl, Nat.add_left_cancel same⟩

theorem split_before (positive : ∀ n, 0 < len n) {n r : Nat} (inside : r < len n) :
    split len (before len n + r) 0 (before len n + r) = (n, r) := by
  obtain ⟨place, same⟩ := split_place positive _ 0 _ (Nat.le_refl (before len n + r))
  rw [before, Nat.zero_add] at same
  obtain ⟨period, rest⟩ := place_unique place inside same
  exact Prod.ext period rest

theorem period_lt {n m r : Nat} (below : before len n + r < before len m) : n < m := by
  apply Nat.not_le.mp
  intro order
  have bound := @before_le len _ _ order
  omega

end Periods
