import Mathlib.Data.BitVec

/- A write to a register of which only the bits of a mask can be written. -/
namespace MaskedWrites
open BitVec
variable {w : Nat}

def replace (old new mask : BitVec w) : BitVec w := (old &&& ~~~mask) ||| (new &&& mask)

theorem get_replace (old new mask : BitVec w) (i : Nat) :
    (replace old new mask).getLsbD i = if mask.getLsbD i then new.getLsbD i else old.getLsbD i := by
  by_cases inside : i < w
  · unfold replace
    simp only [getLsbD_or, getLsbD_and, getLsbD_not, inside]
    cases mask.getLsbD i <;> simp
  · simp [getLsbD_of_ge, Nat.le_of_not_lt inside]

theorem replace_keeps {mask kept : BitVec w} (apart : mask &&& kept = 0) (old new : BitVec w) :
    replace old new mask &&& kept = old &&& kept := by
  apply eq_of_getLsbD_eq
  intro i _
  have bit : (mask &&& kept).getLsbD i = (0 : BitVec w).getLsbD i := by rw [apart]
  rw [getLsbD_and] at bit ⊢
  rw [get_replace, getLsbD_and]
  cases chosen : mask.getLsbD i with
  | false => rfl
  | true => simp_all

end MaskedWrites
