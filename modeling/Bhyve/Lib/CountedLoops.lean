import Mathlib.Algebra.Group.Nat.Defs
import Mathlib.Data.List.Basic

/- The loops `for (i = a; i <= b; i++)` and `for (i = a; i >= b; i--)` on an unsigned counter of w
   bits. They end unless the counter goes round before the comparison fails. -/
namespace CountedLoops
open BitVec
variable {S : Type} {w : Nat}

def countUp (body : Nat → S → Option S) (last : BitVec w) : Nat → BitVec w → S → Option S
  | 0, _, _ => none
  | fuel + 1, i, s =>
      if i ≤ last then (body i.toNat s).bind (countUp body last fuel (i + 1)) else some s

def countDown (body : Nat → S → Option S) (first : BitVec w) : Nat → BitVec w → S → Option S
  | 0, _, _ => none
  | fuel + 1, i, s =>
      if first ≤ i then (body i.toNat s).bind (countDown body first fuel (i - 1)) else some s

def repeatUp (body : Nat → S → S) : Nat → Nat → S → S
  | 0, _, s => s
  | n + 1, i, s => repeatUp body n (i + 1) (body i s)

def repeatDown (body : Nat → S → S) : Nat → Nat → S → S
  | 0, _, s => s
  | n + 1, i, s => repeatDown body n (i - 1) (body i s)

section
variable {body : Nat → S → Option S} {total : Nat → S → S}

theorem one_to_nat (wide : 1 < 2 ^ w) : (1 : BitVec w).toNat = 1 := by
  exact Nat.mod_eq_of_lt wide

theorem count_up_ends (returns : ∀ i s, body i s = some (total i s)) {last : BitVec w}
    (below : last.toNat + 1 < 2 ^ w) (n : Nat) : ∀ (fuel : Nat) (i : BitVec w) (s : S),
    last.toNat + 1 - i.toNat = n → n < fuel →
      countUp body last fuel i s = some (repeatUp total n i.toNat s) := by
  induction n with
  | zero =>
    intro fuel i s rounds enough
    obtain ⟨fuel, rfl⟩ : ∃ k, fuel = k + 1 := ⟨fuel - 1, by omega⟩
    rw [countUp, if_neg (by rw [le_def]; omega), repeatUp]
  | succ n ih =>
    intro fuel i s rounds enough
    obtain ⟨fuel, rfl⟩ : ∃ k, fuel = k + 1 := ⟨fuel - 1, by omega⟩
    have one : (1 : BitVec w).toNat = 1 := one_to_nat (by omega)
    have next : (i + 1).toNat = i.toNat + 1 := by
      rw [toNat_add_of_lt (by rw [one]; omega), one]
    rw [countUp, if_pos (by rw [le_def]; omega), returns, Option.bind_some,
      ih fuel (i + 1) _ (by omega) (by omega), repeatUp, next]

theorem count_down_ends (returns : ∀ i s, body i s = some (total i s)) {first : BitVec w}
    (above : 0 < first.toNat) (n : Nat) : ∀ (fuel : Nat) (i : BitVec w) (s : S),
    i.toNat + 1 - first.toNat = n → n < fuel →
      countDown body first fuel i s = some (repeatDown total n i.toNat s) := by
  induction n with
  | zero =>
    intro fuel i s rounds enough
    obtain ⟨fuel, rfl⟩ : ∃ k, fuel = k + 1 := ⟨fuel - 1, by omega⟩
    rw [countDown, if_neg (by rw [le_def]; omega), repeatDown]
  | succ n ih =>
    intro fuel i s rounds enough
    obtain ⟨fuel, rfl⟩ : ∃ k, fuel = k + 1 := ⟨fuel - 1, by omega⟩
    have one : (1 : BitVec w).toNat = 1 := one_to_nat (by omega)
    have next : (i - 1).toNat = i.toNat - 1 := by
      rw [toNat_sub_of_le (by rw [le_def, one]; omega), one]
    rw [countDown, if_pos (by rw [le_def]; omega), returns, Option.bind_some,
      ih fuel (i - 1) _ (by omega) (by omega), repeatDown, next]

end
end CountedLoops
