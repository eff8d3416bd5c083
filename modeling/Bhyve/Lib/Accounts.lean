import Mathlib.Data.List.Perm.Basic

/-!
Records take items on and pay them off, and a state holds the items that are neither paid nor
lost.
-/
namespace Accounts
variable {S R I : Type} [DecidableEq I] {holds : S → List I} {credit debit : R → List I}

def Keeps (holds : S → List I) (credit debit : R → List I) (s : S) (records : List R) (s' : S) :
    Prop :=
  ∀ i, (holds s).count i + (records.flatMap credit).count i =
    (records.flatMap debit).count i + (holds s').count i

theorem keeps_nothing {s s' : S} (same : ∀ i, (holds s').count i = (holds s).count i) :
    Keeps holds credit debit s [] s' := by
  intro i
  rw [same]
  exact Nat.add_comm ..

theorem keeps_append {s s' s'' : S} {records more : List R}
    (first : Keeps holds credit debit s records s')
    (second : Keeps holds credit debit s' more s'') :
    Keeps holds credit debit s (records ++ more) s'' := by
  intro i
  have one := first i
  have two := second i
  rw [List.flatMap_append, List.flatMap_append, List.count_append, List.count_append]
  omega

theorem balanced {s s' : S} {records : List R} (empty : holds s = [])
    (kept : Keeps holds credit debit s records s') :
    (records.flatMap credit).Perm (records.flatMap debit ++ holds s') := by
  refine List.perm_iff_count.mpr fun i => ?_
  have here := kept i
  rw [empty, List.count_nil, Nat.zero_add] at here
  rw [List.count_append, here]

omit [DecidableEq I] in
theorem take_out {l : List I} {j : Nat} {i : I} (there : l[j]? = some i) :
    (i :: l.eraseIdx j).Perm l := by
  obtain ⟨inside, same⟩ := List.getElem?_eq_some_iff.mp there
  rw [← same]
  exact List.getElem_cons_eraseIdx_perm inside

end Accounts
