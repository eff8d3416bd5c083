import Mathlib.Data.List.Nodup

/- A memory some places of which are overwritten for a while, with a list of what was there:
   what is under the patches, and how it comes back. -/
namespace Patches
open Function List
variable {A B I : Type} [DecidableEq A]

def storeAll (mem : A → B) (stores : List (A × B)) : A → B :=
  stores.foldl (fun m s => update m s.1 s.2) mem

theorem storeAll_snoc (mem : A → B) (stores : List (A × B)) (a : A) (b : B) :
    storeAll mem (stores ++ [(a, b)]) = update (storeAll mem stores) a b := by
  simp [storeAll]

theorem storeAll_congr {a : A} (stores : List (A × B)) :
    ∀ {mem raw : A → B}, raw a = mem a → storeAll raw stores a = storeAll mem stores a := by
  induction stores with
  | nil => intro mem raw same; exact same
  | cons s rest ih =>
    intro mem raw same
    apply ih
    by_cases here : a = s.1
    · simp [here]
    · simp [update_of_ne here, same]

theorem storeAll_same {a : A} {b : B} (stores : List (A × B)) :
    ∀ {mem : A → B}, mem a = b → (∀ s ∈ stores, s.1 = a → s.2 = b) → storeAll mem stores a = b := by
  induction stores with
  | nil => intro mem here _; exact here
  | cons s rest ih =>
    intro mem here only
    refine ih ?_ fun s' later => only s' (mem_cons_of_mem s later)
    by_cases stored : s.1 = a
    · simp [← stored, only s mem_cons_self stored]
    · simp [update_of_ne (Ne.symm stored), here]

/-- Beside the places in the list raw is mem, and for these the list has what mem has there. -/
structure Patched (place : I → A) (value : I → B) (mem raw : A → B) (saved : List I) : Prop where
  once : (saved.map place).Nodup
  kept : ∀ i ∈ saved, value i = mem (place i)
  clear : ∀ a, (∀ i ∈ saved, place i ≠ a) → raw a = mem a

variable {place : I → A} {value : I → B} {mem raw : A → B} {saved : List I}

omit [DecidableEq A] in
theorem patched_nil (mem : A → B) : Patched place value mem mem [] :=
  ⟨nodup_nil, fun _ none => (nomatch none), fun _ _ => rfl⟩

theorem patch (under : Patched place value mem raw saved) {i : I} (fresh : ∀ j ∈ saved, place j ≠ place i)
    (keeps : value i = raw (place i)) (mark : B) :
    Patched place value mem (update raw (place i) mark) (saved ++ [i]) where
  once := by
    rw [map_append, map_singleton, nodup_append]
    refine ⟨under.once, nodup_singleton _, ?_⟩
    intro a old b new
    obtain ⟨j, member, rfl⟩ := List.mem_map.mp old
    rw [List.mem_singleton.mp new]
    exact fresh j member
  kept := by
    intro j member
    rcases List.mem_append.mp member with old | new
    · exact under.kept j old
    · obtain rfl := List.mem_singleton.mp new
      rw [keeps]
      exact under.clear _ fresh
  clear := by
    intro a apart
    have other : a ≠ place i := Ne.symm (apart i (by simp))
    rw [update_of_ne other]
    exact under.clear a fun j member => apart j (by simp [member])

theorem mem_eraseP_of_once (once : (saved.map place).Nodup) {i j : I} (there : i ∈ saved) :
    j ∈ saved.eraseP (fun k => place k = place i) ↔ j ∈ saved ∧ place j ≠ place i := by
  induction saved with
  | nil => cases there
  | cons k rest ih =>
    rw [map_cons, nodup_cons] at once
    obtain ⟨fresh, once⟩ := once
    have beside : ∀ l ∈ rest, place l ≠ place k := by
      intro l later same
      exact fresh (List.mem_map.mpr ⟨l, later, same⟩)
    by_cases first : place k = place i
    · rw [eraseP_cons_of_pos (by simpa using first)]
      constructor
      · intro later
        exact ⟨mem_cons_of_mem k later, first ▸ beside j later⟩
      · rintro ⟨member, apart⟩
        rcases List.mem_cons.mp member with rfl | later
        · exact absurd first apart
        · exact later
    · have later : i ∈ rest := by
        rcases List.mem_cons.mp there with rfl | later
        · exact absurd rfl first
        · exact later
      rw [eraseP_cons_of_neg (by simpa using first), mem_cons, mem_cons,
        ih once later, or_and_right]
      refine or_congr ?_ Iff.rfl
      constructor
      · rintro rfl
        exact ⟨rfl, first⟩
      · exact fun both => both.1

theorem unpatch (under : Patched place value mem raw saved) {i : I} (there : i ∈ saved) :
    Patched place value mem (update raw (place i) (value i))
      (saved.eraseP fun j => place j = place i) where
  once := under.once.sublist (List.eraseP_sublist.map place)
  kept := fun j member => under.kept j (mem_of_mem_eraseP member)
  clear := by
    intro a apart
    by_cases here : a = place i
    · subst here
      rw [update_self]
      exact under.kept i there
    · rw [update_of_ne here]
      refine under.clear a fun j member same => ?_
      subst same
      exact apart j ((mem_eraseP_of_once under.once there).mpr ⟨member, here⟩) rfl

def restoreAll (place : I → A) (value : I → B) (raw : A → B) (saved : List I) : A → B :=
  saved.foldl (fun m i => update m (place i) (value i)) raw

theorem restoreAll_eq (saved : List I) : ∀ {raw : A → B},
    Patched place value mem raw saved → restoreAll place value raw saved = mem := by
  induction saved with
  | nil =>
    intro raw under
    exact funext fun a => under.clear a (by simp)
  | cons i rest ih =>
    intro raw under
    apply ih
    have back := unpatch under (mem_cons_self (a := i))
    rwa [eraseP_cons_of_pos (by simp)] at back

theorem store_under (under : Patched place value mem raw saved) {stores : List (A × B)}
    (respects : ∀ s ∈ stores, ∀ i ∈ saved, place i = s.1 → s.2 = value i) :
    Patched place value (storeAll mem stores) (storeAll raw stores) saved where
  once := under.once
  kept := by
    intro i member
    refine (storeAll_same stores (under.kept i member).symm fun s stored here => ?_).symm
    exact respects s stored i member here.symm
  clear := fun a apart => storeAll_congr stores (under.clear a apart)

end Patches
