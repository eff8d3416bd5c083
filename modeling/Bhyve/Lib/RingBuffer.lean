import Mathlib.Data.List.Basic

/- The queue held between two positions of a ring of n slots. One slot stays free:
   equal positions mean an empty queue, so at most n - 1 values are held. -/
namespace RingBuffer
open List
variable {α : Type}

def next (n i : Nat) : Nat := if i + 1 = n then 0 else i + 1

def index (n head k : Nat) : Nat := if head + k < n then head + k else head + k - n

def distance (n head tail : Nat) : Nat := if head ≤ tail then tail - head else tail + n - head

def contents (n : Nat) (slot : Nat → α) (head tail : Nat) : List α :=
  (List.range (distance n head tail)).map fun k => slot (index n head k)

variable {n head tail : Nat} {slot : Nat → α}

theorem next_lt {i : Nat} (inside : i < n) : next n i < n := by
  unfold next
  split <;> omega

theorem contents_empty (n : Nat) (slot : Nat → α) (head : Nat) :
    contents n slot head head = [] := by
  simp [contents, distance]

theorem distance_next_tail (headIn : head < n) (room : next n tail ≠ head) :
    distance n head (next n tail) = distance n head tail + 1 := by
  unfold next at *
  by_cases last : tail + 1 = n
  · simp only [last, ↓reduceIte] at room ⊢
    simp only [distance]
    split <;> split <;> omega
  · simp only [last, ↓reduceIte] at room ⊢
    simp only [distance]
    split <;> split <;> omega

theorem index_distance (headIn : head < n) (tailIn : tail < n) :
    index n head (distance n head tail) = tail := by
  simp only [index, distance]
  split <;> split <;> omega

theorem index_ne_tail {k : Nat} (headIn : head < n) (tailIn : tail < n)
    (held : k < distance n head tail) : index n head k < n ∧ index n head k ≠ tail := by
  simp only [distance] at held
  simp only [index]
  split at held <;> split <;> omega

theorem distance_next_head (headIn : head < n) (tailIn : tail < n) (held : head ≠ tail) :
    distance n head tail = distance n (next n head) tail + 1 := by
  simp only [distance, next]
  split <;> split <;> split <;> omega

theorem index_next_head {k : Nat} (tailIn : tail < n) (held : k < distance n (next n head) tail) :
    index n head (k + 1) = index n (next n head) k := by
  simp only [distance, next] at held
  simp only [index, next]
  split <;> split <;> split <;> split at held <;> split at held <;> omega

theorem contents_push {slot' : Nat → α} (headIn : head < n) (tailIn : tail < n)
    (room : next n tail ≠ head) (others : ∀ i, i < n → i ≠ tail → slot' i = slot i) :
    contents n slot' head (next n tail) = contents n slot head tail ++ [slot' tail] := by
  simp only [contents, distance_next_tail headIn room, range_succ, map_append,
    map_cons, map_nil, index_distance headIn tailIn]
  congr 1
  apply map_congr_left
  intro k member
  have held := index_ne_tail headIn tailIn (List.mem_range.mp member)
  exact others _ held.1 held.2

theorem contents_pop (headIn : head < n) (tailIn : tail < n) (held : head ≠ tail) :
    contents n slot head tail = slot head :: contents n slot (next n head) tail := by
  have first : index n head 0 = head := by simp [index, headIn]
  simp only [contents]
  rw [distance_next_head headIn tailIn held, range_succ_eq_map]
  simp only [map_cons, List.map_map, first]
  congr 1
  apply map_congr_left
  intro k member
  simp only [Function.comp_apply]
  rw [index_next_head tailIn (List.mem_range.mp member)]

theorem contents_congr {slot' : Nat → α} (headIn : head < n) (tailIn : tail < n)
    (same : ∀ i, i < n → slot' i = slot i) :
    contents n slot' head tail = contents n slot head tail := by
  apply map_congr_left
  intro k member
  exact same _ (index_ne_tail headIn tailIn (List.mem_range.mp member)).1

end RingBuffer
