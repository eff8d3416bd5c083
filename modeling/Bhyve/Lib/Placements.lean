import Mathlib.Data.List.Basic

/-!
Values that are stored at addresses of a memory, one after the other.
-/
namespace Placements
variable {B : Type}

def place : List B → List Nat → (Nat → B) → Nat → B
  | v :: values, a :: addresses, m => place values addresses (Function.update m a v)
  | _, _, m => m

@[simp] theorem place_nil (addresses : List Nat) (m : Nat → B) : place [] addresses m = m := by
  cases addresses <;> rfl

theorem place_append {values : List B} {addresses : List Nat} (more : List B) (others : List Nat)
    (same : values.length = addresses.length) (m : Nat → B) :
    place (values ++ more) (addresses ++ others) m =
      place more others (place values addresses m) := by
  induction values generalizing addresses m with
  | nil =>
    rw [List.eq_nil_of_length_eq_zero same.symm]
    rfl
  | cons v values ih =>
    cases addresses with
    | nil => cases same
    | cons a addresses => exact ih (Nat.succ.inj same) _

theorem place_other {a : Nat} {addresses : List Nat} (apart : a ∉ addresses) (values : List B)
    (m : Nat → B) : place values addresses m a = m a := by
  induction addresses generalizing values m with
  | nil => cases values <;> rfl
  | cons b addresses ih =>
    cases values with
    | nil => rfl
    | cons v values =>
      rw [List.mem_cons, not_or] at apart
      exact (ih apart.2 values _).trans (Function.update_of_ne apart.1 ..)

theorem place_here {values : List B} {addresses : List Nat} {k a : Nat} {v : B}
    (value : values[k]? = some v) (address : addresses[k]? = some a)
    (last : a ∉ addresses.drop (k + 1)) (m : Nat → B) : place values addresses m a = v := by
  induction k generalizing values addresses m with
  | zero =>
    cases values with
    | nil => cases value
    | cons w values =>
      cases addresses with
      | nil => cases address
      | cons b addresses =>
        cases value
        cases address
        exact (place_other last values _).trans (Function.update_self ..)
  | succ k ih =>
    cases values with
    | nil => cases value
    | cons w values =>
      cases addresses with
      | nil => cases address
      | cons b addresses => exact ih value address last _

theorem place_block (values : List B) (start : Nat) (m : Nat → B) : (∀ k v, values[k]? = some v →
      place values (List.range' start values.length) m (start + k) = v) ∧
    ∀ a, a < start ∨ start + values.length ≤ a →
      place values (List.range' start values.length) m a = m a := by
  constructor
  · intro k v value
    have short : k < values.length := (List.getElem?_eq_some_iff.mp value).1
    refine place_here value ?_ ?_ m
    · rw [List.getElem?_range' short]
      simp
    · rw [List.drop_range']
      simp only [List.mem_range'_1, not_and, Nat.not_lt]
      omega
  · intro a outside
    refine place_other ?_ values m
    simp only [List.mem_range'_1, not_and, Nat.not_lt]
    omega

end Placements
