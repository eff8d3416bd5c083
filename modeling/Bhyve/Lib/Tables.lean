import Mathlib.Data.List.Basic

/-!
A table of entries in which one entry changes: what the entries hold together, and how many of them
meet a test, change by what that entry holds and by whether it meets it.
-/
namespace Tables
variable {α β : Type} {table : List α} {v : Nat} {old : α}

theorem set_splits (there : table[v]? = some old) : ∃ before after, table = before ++ old :: after ∧
      ∀ new, table.set v new = before ++ new :: after := by
  obtain ⟨inside, here⟩ := List.getElem?_eq_some_iff.mp there
  refine ⟨table.take v, table.drop (v + 1), ?_, fun new => ?_⟩
  · rw [← here, List.getElem_cons_drop, List.take_append_drop]
  · exact List.set_eq_take_append_cons_drop.trans (if_pos inside)

theorem set_holds (hold : α → List β) (there : table[v]? = some old) :
    ∃ rest, (table.flatMap hold).Perm (hold old ++ rest) ∧
      ∀ new, ((table.set v new).flatMap hold).Perm (hold new ++ rest) := by
  obtain ⟨before, after, whole, changed⟩ := set_splits there
  have each : ∀ entry, ((before ++ entry :: after).flatMap hold).Perm
      (hold entry ++ (before.flatMap hold ++ after.flatMap hold)) := by
    intro entry
    rw [List.flatMap_append, List.flatMap_cons, ← List.append_assoc, ← List.append_assoc]
    exact List.perm_append_comm.append_right _
  refine ⟨before.flatMap hold ++ after.flatMap hold, whole ▸ each old, fun new => ?_⟩
  rw [changed]
  exact each new

theorem set_counts (test : α → Bool) (there : table[v]? = some old) :
    ∃ others, table.countP test = others + (if test old then 1 else 0) ∧
      ∀ new, (table.set v new).countP test = others + if test new then 1 else 0 := by
  obtain ⟨before, after, whole, changed⟩ := set_splits there
  have each : ∀ entry, (before ++ entry :: after).countP test =
      before.countP test + after.countP test + if test entry then 1 else 0 := by
    intro entry
    rw [List.countP_append, List.countP_cons, Nat.add_assoc]
  refine ⟨before.countP test + after.countP test, whole ▸ each old, fun new => ?_⟩
  rw [changed]
  exact each new

theorem mem_set {entry new : α} (member : entry ∈ table.set v new) : entry = new ∨ entry ∈ table :=
  (List.mem_or_eq_of_mem_set member).symm

end Tables
