import Mathlib.Logic.Basic

/- Programs over a state that may stop early, and what they ensure: one condition for the end that
   returns, one for the end that stops. The condition before a program that makes both hold is
   worked out from the end of the program to its start. -/
namespace StatefulRuns
variable {S X A B : Type}

def Ensures (program : EStateM X S A) (s : S) (q : A → S → Prop) (r : X → S → Prop) : Prop :=
  match program s with
  | .ok a t => q a t
  | .error x t => r x t

variable {q : A → S → Prop} {r : X → S → Prop} {s : S}

theorem ensures_pure (a : A) : Ensures (pure a : EStateM X S A) s q r ↔ q a s := Iff.rfl

theorem ensures_throw (x : X) : Ensures (throw x : EStateM X S A) s q r ↔ r x s := Iff.rfl

theorem ensures_get {q : S → S → Prop} : Ensures (get : EStateM X S S) s q r ↔ q s s := Iff.rfl

theorem ensures_modify {q : Unit → S → Prop} (f : S → S) :
    Ensures (modify f : EStateM X S Unit) s q r ↔ q () (f s) := Iff.rfl

/-- What the second half asks for is what the first half is to ensure. -/
theorem ensures_bind (first : EStateM X S B) (second : B → EStateM X S A) :
    Ensures (first >>= second) s q r ↔ Ensures first s (fun b t => Ensures (second b) t q r) r := by
  show (match EStateM.bind first second s with
    | .ok a t => q a t
    | .error x t => r x t) ↔ _
  unfold Ensures EStateM.bind
  cases first s with
  | ok b t => rfl
  | error x t => rfl

theorem ensures_ite (c : Prop) [Decidable c] (first second : EStateM X S A) :
    Ensures (if c then first else second) s q r ↔
      if c then Ensures first s q r else Ensures second s q r := by
  split <;> rfl

theorem ensures_and {p : A → S → Prop} {program : EStateM X S A} :
    ((∀ a t, program s = .ok a t → p a t) ∧ Ensures program s q r) ↔
      Ensures program s (fun a t => p a t ∧ q a t) r := by
  unfold Ensures
  cases program s with
  | ok b u =>
    constructor
    · exact fun both => ⟨both.1 b u rfl, both.2⟩
    · exact fun both => ⟨fun a t same => by cases same; exact both.1, both.2⟩
  | error x u => exact ⟨fun both => both.2, fun stops => ⟨nofun, stops⟩⟩

theorem ensures_mono {q' : A → S → Prop} {r' : X → S → Prop} {program : EStateM X S A}
    (ensured : Ensures program s q r) (returns : ∀ a t, q a t → q' a t)
    (stops : ∀ x t, r x t → r' x t) : Ensures program s q' r' := by
  unfold Ensures at ensured ⊢
  split at ensured
  · exact returns _ _ ensured
  · exact stops _ _ ensured

end StatefulRuns
