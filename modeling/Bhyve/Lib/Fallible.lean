/-!
Computations that may fail, one after the other: what is known of the first half of a bind, and of
its second, is known of the whole.
-/
namespace Fallible
variable {X A B : Type} {x : Except X A} {f : A → Except X B}

theorem bind_ok {a : A} (first : x = .ok a) : x >>= f = f a := by
  rw [first]
  rfl

theorem bind_ok_split {b : B} (ran : x >>= f = .ok b) : ∃ a, x = .ok a ∧ f a = .ok b := by
  cases x with
  | ok a => exact ⟨a, rfl, ran⟩
  | error fault => cases ran

theorem bind_error_split {e : X} (ran : x >>= f = .error e) :
    x = .error e ∨ ∃ a, x = .ok a ∧ f a = .error e := by
  cases x with
  | ok a => exact .inr ⟨a, rfl, ran⟩
  | error fault =>
    cases ran
    exact .inl rfl

theorem ite_split {c : Prop} [Decidable c] {first second y : Except X A}
    (ran : (if c then first else second) = y) : (c ∧ first = y) ∨ (¬ c ∧ second = y) := by
  by_cases holds : c
  · rw [if_pos holds] at ran
    exact .inl ⟨holds, ran⟩
  · rw [if_neg holds] at ran
    exact .inr ⟨holds, ran⟩

theorem value_of_result {g : A → B} {b : B} (shown : x.toOption.map g = some b) :
    ∃ a, x = .ok a ∧ g a = b := by
  cases x with
  | error fault => cases shown
  | ok a => exact ⟨a, rfl, Option.some.inj shown⟩

end Fallible
