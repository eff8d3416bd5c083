import Mathlib.Data.BitVec
import Mathlib.Data.List.Range

/-!
One register of w bits as a set of numbers below w: adding and removing one number, collecting
the numbers that meet a test, and when two registers meet.
-/
namespace BitMasks
open BitVec
variable {w : Nat}

def add (x : BitVec w) (n : Nat) : BitVec w := x ||| BitVec.twoPow w n

def remove (x : BitVec w) (n : Nat) : BitVec w := x &&& ~~~BitVec.twoPow w n

def collect (test : Nat → Bool) (count : Nat) (x : BitVec w) : BitVec w :=
  (List.range count).foldl (fun x n => if test n then add x n else x) x

theorem get_add (x : BitVec w) (n m : Nat) :
    (add x n).getLsbD m = (x.getLsbD m || decide (m < w ∧ m = n)) := by
  by_cases same : m = n
  · simp [add, getLsbD_or, getLsbD_twoPow, same]
  · simp [add, getLsbD_or, getLsbD_twoPow, same, Ne.symm same]

theorem get_add_same (x : BitVec w) {n : Nat} (inside : n < w) : (add x n).getLsbD n = true := by
  simp [get_add, inside]

theorem get_add_other (x : BitVec w) {n m : Nat} (apart : m ≠ n) :
    (add x n).getLsbD m = x.getLsbD m := by
  simp [get_add, apart]

theorem add_of_get {x : BitVec w} {n : Nat} (set_ : x.getLsbD n = true) : add x n = x := by
  apply eq_of_getLsbD_eq
  intro m _
  by_cases same : m = n
  · rw [same, set_, get_add, set_, Bool.true_or]
  · exact get_add_other x same

theorem get_add_of_get {x : BitVec w} {m : Nat} (n : Nat) (set_ : x.getLsbD m = true) :
    (add x n).getLsbD m = true := by
  rw [get_add, set_, Bool.true_or]

theorem get_remove (x : BitVec w) (n m : Nat) :
    (remove x n).getLsbD m = (x.getLsbD m && decide (m ≠ n)) := by
  by_cases inside : m < w
  · by_cases same : m = n
    · simp [remove, same]
    · simp [remove, inside, same]
  · simp [getLsbD_of_ge, Nat.le_of_not_lt inside]

theorem get_remove_same (x : BitVec w) (n : Nat) : (remove x n).getLsbD n = false := by
  simp [get_remove]

theorem get_remove_other (x : BitVec w) {n m : Nat} (apart : m ≠ n) :
    (remove x n).getLsbD m = x.getLsbD m := by
  simp [get_remove, apart]

theorem get_collect (test : Nat → Bool) (x : BitVec w) (m : Nat) (count : Nat) :
    (collect test count x).getLsbD m =
      (x.getLsbD m || decide (m < w ∧ m < count ∧ test m = true)) := by
  induction count with
  | zero => simp [collect]
  | succ count ih =>
    rw [collect, List.range_succ, List.foldl_append, List.foldl_cons, List.foldl_nil]
    rw [collect] at ih
    by_cases same : m = count
    · subst same
      cases chosen : test m with
      | true => rw [if_pos rfl, get_add, ih]; simp
      | false => rw [if_neg (by decide), ih]; simp
    · have step : m < count + 1 ↔ m < count := by omega
      cases chosen : test count with
      | true => rw [if_pos rfl, get_add_other _ same, ih]; simp only [step]
      | false => rw [if_neg (by decide), ih]; simp only [step]

theorem ne_zero_iff (x : BitVec w) : x ≠ 0 ↔ ∃ n, x.getLsbD n = true := by
  constructor
  · intro filled
    by_contra none
    apply filled
    apply eq_of_getLsbD_eq
    intro n _
    have clear := not_exists.mp none n
    simpa using clear
  · rintro ⟨n, set_⟩ zero
    rw [zero] at set_
    simp at set_

theorem meet_iff (x y : BitVec w) : x &&& y ≠ 0 ↔ ∃ n, x.getLsbD n = true ∧ y.getLsbD n = true := by
  rw [ne_zero_iff]
  simp only [getLsbD_and, Bool.and_eq_true]

theorem add_ne_zero (x : BitVec w) {n : Nat} (inside : n < w) : add x n ≠ 0 :=
  (ne_zero_iff _).mpr ⟨n, get_add_same x inside⟩

end BitMasks
