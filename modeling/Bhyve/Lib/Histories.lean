import Mathlib.Data.List.Basic

/- Logs to which events are only added at the end, and what each event finds before it. -/
namespace Histories
variable {E : Type} {p : List E → E → Prop} {log : List E} {e : E}

/-- Each event of the log meets p with the events before it. -/
def EachAfter (p : List E → E → Prop) (log : List E) : Prop :=
  ∀ before e after, log = before ++ e :: after → p before e

theorem each_after_nil : EachAfter p [] := by
  intro before e after never
  cases before <;> cases never

theorem split_snoc {before after : List E} {e' : E} (split : log ++ [e] = before ++ e' :: after) :
    (∃ rest, log = before ++ e' :: rest ∧ after = rest ++ [e]) ∨
      log = before ∧ e = e' ∧ after = [] := by
  obtain rfl | ⟨rest, last, rfl⟩ := List.eq_nil_or_concat after
  · obtain ⟨same, last⟩ := List.append_inj' split rfl
    exact .inr ⟨same, List.singleton_inj.mp last, rfl⟩
  · rw [List.concat_eq_append] at split ⊢
    rw [← List.cons_append, ← List.append_assoc] at split
    obtain ⟨same, last_⟩ := List.append_inj' split rfl
    obtain rfl := List.singleton_inj.mp last_
    exact .inl ⟨rest, same, rfl⟩

theorem each_after_snoc (each : EachAfter p log) (last : p log e) : EachAfter p (log ++ [e]) := by
  intro before e' after split
  obtain ⟨rest, same, -⟩ | ⟨rfl, rfl, -⟩ := split_snoc split
  · exact each before e' rest same
  · exact last

end Histories
