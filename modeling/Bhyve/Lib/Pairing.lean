import Mathlib.Data.List.Basic

/-!
Two kinds of marks in a history, the newest mark first. Where every mark of the second kind
comes after one of the first kind that no other has used, there are at least as many of the
first kind.
-/
namespace Pairing
open List
variable {E : Type} (raises fires : E → Bool)

def Armed : List E → Bool
  | [] => false
  | e :: rest => raises e || (!fires e && Armed rest)

def Paired : List E → Prop
  | [] => True
  | e :: rest => (fires e = true → Armed raises fires rest = true) ∧ Paired rest

variable {raises fires}

variable {e : E} {history : List E}

theorem paired_cons (paired : Paired raises fires history)
    (ready : fires e = true → Armed raises fires history = true) :
    Paired raises fires (e :: history) := ⟨ready, paired⟩

theorem armed_raise (raise : raises e = true) (history : List E) :
    Armed raises fires (e :: history) = true := by
  rw [Armed, raise, Bool.true_or]

theorem armed_other (calm : fires e = false) (armed : Armed raises fires history = true) :
    Armed raises fires (e :: history) = true := by
  rw [Armed, calm, armed]
  exact Bool.or_true _

theorem armed_append (armed : Armed raises fires history = true) (newer : List E)
    (calm : ∀ e ∈ newer, fires e = false) : Armed raises fires (newer ++ history) = true := by
  induction newer with
  | nil => exact armed
  | cons e rest ih =>
    have later := ih fun other member => calm other (mem_cons_of_mem e member)
    exact armed_other (calm e mem_cons_self) later

theorem armed_calm (newer : List E) (calm : ∀ e ∈ newer, raises e = false ∧ fires e = false) :
    Armed raises fires (newer ++ history) = Armed raises fires history := by
  induction newer with
  | nil => rfl
  | cons e rest ih =>
    obtain ⟨low, still⟩ := calm e mem_cons_self
    have later := ih fun other member => calm other (mem_cons_of_mem e member)
    rw [List.cons_append, Armed, low, still, later, Bool.not_false, Bool.true_and, Bool.false_or]

theorem armed_raised (history : List E) {newer : List E} (calm : ∀ e ∈ newer, fires e = false)
    {raise : E} (member : raise ∈ newer) (raised : raises raise = true) :
    Armed raises fires (newer ++ history) = true := by
  induction newer with
  | nil => cases member
  | cons e rest ih =>
    obtain rfl | later := List.mem_cons.mp member
    · exact armed_raise raised _
    · have rests := ih (fun other inside => calm other (mem_cons_of_mem e inside)) later
      exact armed_other (calm e mem_cons_self) rests

theorem armed_fired (history : List E) {newer : List E} (low : ∀ e ∈ newer, raises e = false)
    {fire : E} (member : fire ∈ newer) (fired : fires fire = true) :
    Armed raises fires (newer ++ history) = false := by
  induction newer with
  | nil => cases member
  | cons e rest ih =>
    rw [List.cons_append, Armed, low e mem_cons_self, Bool.false_or]
    obtain rfl | later := List.mem_cons.mp member
    · rw [fired, Bool.not_true, Bool.false_and]
    · have rests := ih (fun other inside => low other (mem_cons_of_mem e inside)) later
      rw [rests, Bool.and_false]

theorem armed_between {between : E → Bool} (armed : Armed raises fires history = true) :
    Armed raises between history = true ∨ Armed between fires history = true := by
  induction history with
  | nil => cases armed
  | cons e rest ih =>
    rw [Armed, Bool.or_eq_true, Bool.and_eq_true] at armed
    obtain raise | ⟨calm, later⟩ := armed
    · exact .inl (armed_raise raise rest)
    · rw [Bool.not_eq_true'] at calm
      cases middle : between e with
      | true => exact .inr (armed_raise middle rest)
      | false => exact (ih later).imp (armed_other middle) (armed_other calm)

theorem paired_append (paired : Paired raises fires history) (newer : List E)
    (few : newer.countP fires ≤ 1)
    (ready : ∀ e ∈ newer, fires e = true → Armed raises fires history = true) :
    Paired raises fires (newer ++ history) := by
  induction newer with
  | nil => exact paired
  | cons e rest ih =>
    have rests := ih (Nat.le_trans (Sublist.countP_le (sublist_cons_self e rest)) few)
      fun other member => ready other (mem_cons_of_mem e member)
    refine paired_cons rests fun fire => ?_
    have none : rest.countP fires = 0 := by
      rw [countP_cons_of_pos fire] at few
      exact Nat.le_zero.mp (Nat.le_of_succ_le_succ few)
    apply armed_append (ready e mem_cons_self fire)
    intro other member
    exact eq_false_of_ne_true (List.countP_eq_zero.mp none other member)

theorem count_calm {p : E → Bool} (calm : p e = false) (history : List E) :
    (e :: history).countP p = history.countP p := by
  apply countP_cons_of_neg
  rw [calm]
  exact Bool.false_ne_true

theorem paired_count (apart : ∀ e, raises e = true → fires e = false)
    (paired : Paired raises fires history) :
    history.countP fires + (if Armed raises fires history then 1 else 0) ≤
      history.countP raises := by
  induction history with
  | nil => exact Nat.le_refl 0
  | cons e rest ih =>
    have before := ih paired.2
    cases raise : raises e with
    | true =>
      have calm := apart e raise
      rw [count_calm calm, countP_cons_of_pos raise, armed_raise raise, if_pos rfl]
      split at before <;> omega
    | false =>
      rw [count_calm raise, Armed, raise, Bool.false_or]
      cases fire : fires e with
      | true =>
        rw [paired.1 fire, if_pos rfl] at before
        rw [countP_cons_of_pos fire, Bool.not_true, Bool.false_and,
          if_neg Bool.false_ne_true]
        omega
      | false =>
        rw [count_calm fire, Bool.not_false, Bool.true_and]
        exact before

end Pairing
