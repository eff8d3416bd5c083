import Mathlib.Algebra.Group.Nat.Defs
import Mathlib.Data.List.Basic

/-!
Rings of 2^k slots under counters of w bits that run freely. The counter of a history is its
length modulo 2^w, and its low bits name the slot of the next entry.
-/
namespace FreeRunning
open BitVec
variable {α : Type} {w k : Nat}

def counter (w n : Nat) : BitVec w := BitVec.ofNat w n

theorem counter_next (w n : Nat) : counter w n + 1 = counter w (n + 1) := by
  unfold counter
  rw [ofNat_add]
  rfl

theorem counter_add (w a b : Nat) : counter w a + BitVec.ofNat w b = counter w (a + b) := by
  exact (ofNat_add a b).symm

variable {a b n first : Nat} {slot : Nat → α} {history : List α}

theorem counter_back (order : b ≤ a) : counter w a - BitVec.ofNat w b = counter w (a - b) := by
  have whole : counter w (a - b) + BitVec.ofNat w b = counter w a := by
    rw [counter_add, Nat.sub_add_cancel order]
  rw [← whole, BitVec.add_sub_cancel]

/-- Two counters less than 2^w apart say how far apart they are. -/
theorem counter_distance (order : b ≤ a) (near : a - b < 2 ^ w) :
    (counter w a - counter w b).toNat = a - b := by
  have back : counter w a - counter w b = counter w (a - b) := counter_back order
  rw [back]
  unfold counter
  exact Nat.mod_eq_of_lt near

theorem counter_passes (order : a ≤ b) (near : b - a < 2 ^ w) (x : BitVec w) :
    counter w b - x - 1 < counter w b - counter w a ↔
      ∃ n, a < n ∧ n ≤ b ∧ counter w n = x + 1 := by
  have apart : (counter w b - counter w a).toNat = b - a := counter_distance order near
  have target : counter w b - x - 1 = counter w b - (x + 1) := by
    rw [BitVec.sub_sub]
  rw [target, lt_def, apart]
  constructor
  · intro closer
    have back : counter w (b - (counter w b - (x + 1)).toNat) = x + 1 := by
      rw [← counter_back (Nat.le_trans (Nat.le_of_lt closer) (Nat.sub_le b a)), BitVec.ofNat_toNat,
        setWidth_eq, BitVec.sub_eq_iff_eq_add, BitVec.add_comm, BitVec.sub_add_cancel]
    exact ⟨b - (counter w b - (x + 1)).toNat, by omega, Nat.sub_le _ _, back⟩
  · rintro ⟨n, after, inside, same⟩
    rw [← same, counter_distance inside (by omega)]
    omega

theorem counter_slot (fits : k ≤ w) (n : Nat) : (counter w n).toNat % 2 ^ k = n % 2 ^ k := by
  unfold counter
  exact Nat.mod_mod_of_dvd n (Nat.pow_dvd_pow 2 fits)

theorem mask_slot (fits : k < w) (x : BitVec w) :
    (x &&& (BitVec.twoPow w k - 1)).toNat = x.toNat % 2 ^ k := by
  have one : (1 : BitVec w).toNat = 1 := by
    exact Nat.mod_eq_of_lt (Nat.one_lt_two_pow (Nat.ne_of_gt (Nat.zero_lt_of_lt fits)))
  have power : (BitVec.twoPow w k).toNat = 2 ^ k := toNat_twoPow_of_lt fits
  have ordered : (1 : BitVec w).toNat ≤ (BitVec.twoPow w k).toNat := by
    rw [one, power]
    exact Nat.one_le_two_pow
  rw [toNat_and, toNat_sub_of_le ordered, power, one, Nat.and_two_pow_sub_one_eq_mod]

theorem slots_apart {p q : Nat} (later : p < q) (near : q - p < n) : p % n ≠ q % n := by
  intro same
  have distance : (q - p) % n = 0 := Nat.sub_mod_eq_zero_of_mod_eq same.symm
  rw [Nat.mod_eq_of_lt near] at distance
  omega

def Holds (n : Nat) (slot : Nat → α) (history : List α) (first : Nat) : Prop :=
  ∀ p, first ≤ p → ∀ x, history[p]? = some x → slot (p % n) = x

theorem holds_store {place : Nat} (holds : Holds n slot history first)
    (after : history.length ≤ place) (near : place - first < n) (x : α) :
    Holds n (Function.update slot (place % n) x) history first := by
  intro p from_ y entry
  have inside := (List.getElem?_eq_some_iff.mp entry).choose
  have apart : p % n ≠ place % n := slots_apart (by omega) (by omega)
  rw [Function.update_of_ne apart]
  exact holds p from_ y entry

theorem holds_append {more : List α} (holds : Holds n slot history first)
    (stored : ∀ j x, more[j]? = some x → slot ((history.length + j) % n) = x) :
    Holds n slot (history ++ more) first := by
  intro p from_ y entry
  by_cases old : p < history.length
  · rw [List.getElem?_append_left old] at entry
    exact holds p from_ y entry
  · have later : history.length ≤ p := Nat.not_lt.mp old
    rw [List.getElem?_append_right later] at entry
    have there := stored _ y entry
    rw [Nat.add_sub_cancel' later] at there
    exact there

theorem holds_later {later : Nat} (holds : Holds n slot history first) (order : first ≤ later) :
    Holds n slot history later :=
  fun p from_ => holds p (Nat.le_trans order from_)

theorem prefix_next {taken : List α} {x : α} (order : taken <+: history)
    (next : history[taken.length]? = some x) : taken ++ [x] <+: history := by
  obtain ⟨rest, whole⟩ := order
  subst whole
  rw [List.getElem?_append_right (Nat.le_refl _), Nat.sub_self] at next
  cases rest with
  | nil => cases next
  | cons y rest =>
    cases next
    exact ⟨rest, List.append_assoc taken [x] rest⟩

end FreeRunning
