import Mathlib.Data.Set.Basic
import Mathlib.Data.List.Basic

/-!
Ranges of numbers that lie apart from each other, as a set, and two representations of such a set:
a map from each number to the label of the range it lies in, and a list that is searched.
-/
namespace Extents
variable {R L : Type}

structure Extent where
  base : Nat
  size : Nat
deriving DecidableEq

def Extent.Has (e : Extent) (x : Nat) : Prop := e.base ≤ x ∧ x < e.base + e.size

def Extent.Apart (e f : Extent) : Prop := e.base + e.size ≤ f.base ∨ f.base + f.size ≤ e.base

instance (e : Extent) (x : Nat) : Decidable (e.Has x) := inferInstanceAs (Decidable (_ ∧ _))

instance (e f : Extent) : Decidable (e.Apart f) := inferInstanceAs (Decidable (_ ∨ _))

theorem not_has_of_apart {e f : Extent} (apart : e.Apart f) {x : Nat} (here : e.Has x) :
    ¬f.Has x := by
  intro there
  obtain ⟨low, high⟩ := here
  obtain ⟨low', high'⟩ := there
  rcases apart with before | after
  · omega
  · omega

structure Spread (extent : R → Extent) (live : Set R) : Prop where
  filled : ∀ r ∈ live, 0 < (extent r).size
  apart : ∀ r ∈ live, ∀ t ∈ live, r ≠ t → (extent r).Apart (extent t)

variable {extent : R → Extent} {label : R → L} {live : Set R} {mark : Nat → Option L} {r t : R}

theorem spread_insert (spread : Spread extent live) (filled : 0 < (extent r).size)
    (free : ∀ t ∈ live, (extent r).Apart (extent t)) : Spread extent (insert r live) := by
  constructor
  · rintro t (rfl | member)
    · exact filled
    · exact spread.filled t member
  · rintro t (rfl | first) u (rfl | second) other
    · exact absurd rfl other
    · exact free u second
    · exact (free t first).symm
    · exact spread.apart t first u second other

theorem spread_subset {less : Set R} (spread : Spread extent live) (subset : less ⊆ live) :
    Spread extent less :=
  ⟨fun r member => spread.filled r (subset member),
    fun r first t second => spread.apart r (subset first) t (subset second)⟩

theorem same_of_has (spread : Spread extent live) (first : r ∈ live) (second : t ∈ live) {x : Nat}
    (here : (extent r).Has x) (there : (extent t).Has x) : r = t := by
  by_contra other
  exact not_has_of_apart (spread.apart r first t second other) here there

theorem find_has (spread : Spread extent live) {l : List R} (listed : ∀ r, r ∈ l ↔ r ∈ live)
    {test : R → Bool} {x : Nat} (exact_ : ∀ r ∈ live, test r = true ↔ (extent r).Has x) :
    l.find? test = some r ↔ r ∈ live ∧ (extent r).Has x := by
  constructor
  · intro found
    have member := (listed r).mp (List.mem_of_find?_eq_some found)
    exact ⟨member, (exact_ r member).mp (List.find?_some found)⟩
  · rintro ⟨member, here⟩
    cases found : l.find? test with
    | none =>
      have never := List.find?_eq_none.mp found r ((listed r).mpr member)
      exact absurd ((exact_ r member).mpr here) never
    | some t =>
      have also := (listed t).mp (List.mem_of_find?_eq_some found)
      have there := (exact_ t also).mp (List.find?_some found)
      rw [same_of_has spread also member there here]

end Extents
