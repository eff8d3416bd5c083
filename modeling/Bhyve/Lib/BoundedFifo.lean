import Mathlib.Data.List.Basic

/-!
A queue of at most n values in a ring of n slots with a count beside its two indices, so that all
the slots can be used. A put into a full queue is dropped.
-/
namespace BoundedFifo
open List
variable {α : Type} {n : Nat}

structure Fifo (α : Type) where
  buf : Nat → α
  rindex : Nat
  windex : Nat
  num : Nat

def put (n : Nat) (f : Fifo α) (x : α) : Fifo α :=
  if f.num < n then
    { buf := Function.update f.buf f.windex x
      rindex := f.rindex
      windex := (f.windex + 1) % n
      num := f.num + 1 }
  else f

def get (n : Nat) (f : Fifo α) : Option (α × Fifo α) :=
  if 0 < f.num then
    some (f.buf f.rindex, { f with rindex := (f.rindex + 1) % n, num := f.num - 1 })
  else none

def contents (n : Nat) (f : Fifo α) : List α :=
  (List.range f.num).map fun k => f.buf ((f.rindex + k) % n)

structure Valid (n : Nat) (f : Fifo α) : Prop where
  room : f.num ≤ n
  read : f.rindex < n
  write : f.windex = (f.rindex + f.num) % n

theorem contents_length (f : Fifo α) : (contents n f).length = f.num := by
  rw [contents, length_map, length_range]

theorem empty_valid (positive : 0 < n) (buf : Nat → α) : Valid n ⟨buf, 0, 0, 0⟩ :=
  ⟨Nat.zero_le n, positive, (Nat.zero_mod n).symm⟩

variable {f : Fifo α}

theorem put_num (room : f.num < n) (x : α) : (put n f x).num = f.num + 1 := by
  rw [put, if_pos room]

theorem put_full (full : ¬ f.num < n) (x : α) : put n f x = f := if_neg full

theorem put_valid (valid : Valid n f) (x : α) : Valid n (put n f x) := by
  unfold put
  split
  · next room =>
    refine ⟨room, valid.read, ?_⟩
    rw [valid.write, Nat.mod_add_mod, Nat.add_assoc]
  · exact valid

theorem write_apart (valid : Valid n f) (room : f.num < n) {k : Nat} (used : k < f.num) :
    (f.rindex + k) % n ≠ f.windex := by
  rw [valid.write]
  intro same
  have distance : (f.rindex + f.num - (f.rindex + k)) % n = 0 :=
    Nat.sub_mod_eq_zero_of_mod_eq same.symm
  rw [Nat.add_sub_add_left, Nat.mod_eq_of_lt (by omega)] at distance
  omega

theorem contents_put (valid : Valid n f) (room : f.num < n) (x : α) :
    contents n (put n f x) = contents n f ++ [x] := by
  rw [put, if_pos room]
  unfold contents
  rw [range_succ, map_append, map_singleton]
  congr 1
  · apply map_congr_left
    intro k member
    have apart := write_apart valid room (List.mem_range.mp member)
    exact Function.update_of_ne apart ..
  · rw [← valid.write]
    exact congrArg (fun y => [y]) (Function.update_self ..)

theorem contents_puts (valid : Valid n f) (xs : List α) (room : f.num + xs.length ≤ n) :
    Valid n (xs.foldl (put n) f) ∧ contents n (xs.foldl (put n) f) = contents n f ++ xs := by
  induction xs generalizing f with
  | nil => exact ⟨valid, (append_nil _).symm⟩
  | cons x rest ih =>
    rw [length_cons] at room
    have first : f.num < n := by omega
    have later := ih (put_valid valid x) (by rw [put_num first x]; omega)
    rw [contents_put valid first x, List.append_assoc] at later
    exact later

theorem get_none : get n f = none ↔ f.num = 0 := by
  unfold get
  split
  · next some_ => exact ⟨nofun, fun none_ => absurd none_ (Nat.ne_of_gt some_)⟩
  · next none_ => exact ⟨fun _ => Nat.eq_zero_of_not_pos none_, fun _ => rfl⟩

theorem get_valid {g : Fifo α} {x : α} (valid : Valid n f) (got : get n f = some (x, g)) :
    Valid n g := by
  unfold get at got
  split at got
  · next some_ =>
    cases got
    have positive : 0 < n := Nat.lt_of_le_of_lt (Nat.zero_le _) valid.read
    refine ⟨Nat.le_trans (Nat.sub_le _ _) valid.room, Nat.mod_lt _ positive, ?_⟩
    rw [valid.write, Nat.mod_add_mod, Nat.add_assoc, Nat.add_sub_cancel' some_]
  · cases got

theorem contents_get {g : Fifo α} {x : α} (valid : Valid n f) (got : get n f = some (x, g)) :
    contents n f = x :: contents n g ∧ f.num = g.num + 1 := by
  unfold get at got
  split at got
  · next some_ =>
    cases got
    refine ⟨?_, (Nat.sub_add_cancel some_).symm⟩
    unfold contents
    obtain ⟨m, more⟩ : ∃ m, f.num = m + 1 := ⟨f.num - 1, (Nat.sub_add_cancel some_).symm⟩
    rw [more, range_succ_eq_map, map_cons, List.map_map, Nat.add_zero,
      Nat.mod_eq_of_lt valid.read, Nat.add_sub_cancel]
    congr 1
    apply map_congr_left
    intro k _
    show f.buf ((f.rindex + (k + 1)) % n) = f.buf (((f.rindex + 1) % n + k) % n)
    rw [Nat.mod_add_mod, Nat.add_assoc, Nat.add_comm 1 k]
  · cases got

end BoundedFifo
