import Bhyve.Block.Proc

/-!
The list helpers of iov.c. A list of vectors stands for the places of its bytes, in order. Lengths
are such that their sums fit a size_t, and malloc and realloc find memory.
-/
namespace Iov
open ByteMemory BlockProc

abbrev Byte := BitVec 8

structure Iovec where
  base : Nat
  len : Nat
  deriving DecidableEq, Repr

def places (iov : List Iovec) : List Nat := iov.flatMap fun v => span v.base v.len

def seekIov : List Iovec → Nat → List Iovec
  | [], _ => []
  | v :: rest, left =>
      let toseek := min left v.len
      let left := left - toseek
      if toseek = v.len then seekIov rest left
      else if left = 0 then ⟨v.base + toseek, v.len - toseek⟩ :: rest
      else seekIov rest left

def countIov (iov : List Iovec) : Nat := (iov.map Iovec.len).sum

/-- The length is what is left of it. The comparison holds of every vector, so that the first one
    ends the list. -/
def truncateIov : List Iovec → Nat → List Iovec
  | [], _ => []
  | v :: rest, length =>
      let toseek := min length v.len
      if toseek ≤ v.len then [⟨v.base, toseek⟩]
      else v :: truncateIov rest (length - toseek)

def iovToBuf (mem : Mem) (iov : List Iovec) : List Byte := (places iov).map mem

def copyLoop : Mem → List Byte → List Iovec → Mem × Nat
  | mem, _, [] => (mem, 0)
  | mem, buf, v :: rest =>
      if buf.isEmpty then (mem, 0)
      else
        let len := min v.len buf.length
        let (mem, off) := copyLoop (copyInto mem v.base len fun j => buf.getD j 0) (buf.drop len) rest
        (mem, len + off)

def bufToIov (mem : Mem) (buf : List Byte) (iov : List Iovec) (seek : Nat) : Mem × Nat :=
  copyLoop mem buf (if 0 < seek then seekIov iov seek else iov)

theorem places_cons (v : Iovec) (rest : List Iovec) :
    places (v :: rest) = span v.base v.len ++ places rest := rfl

theorem places_length (iov : List Iovec) : (places iov).length = countIov iov := by
  induction iov with
  | nil => rfl
  | cons v rest ih =>
    rw [places_cons, List.length_append, span_length, ih]
    rfl

theorem iov_to_buf_length (mem : Mem) (iov : List Iovec) :
    (iovToBuf mem iov).length = countIov iov := by
  rw [iovToBuf, List.length_map, places_length]

theorem places_seek (iov : List Iovec) :
    ∀ seek, places (seekIov iov seek) = (places iov).drop seek := by
  induction iov with
  | nil => intro seek; exact List.drop_nil.symm
  | cons v rest ih =>
    intro seek
    rw [places_cons]
    have length := span_length v.base v.len
    unfold seekIov
    dsimp only
    split
    · next passed =>
      have whole : v.len ≤ seek := by omega
      have gone : (span v.base v.len).drop seek = [] := List.drop_eq_nil_of_le (by omega)
      rw [ih, Nat.min_eq_right whole, List.drop_append, gone, List.nil_append, length]
    · next inside =>
      have short : seek < v.len := by omega
      rw [Nat.min_eq_left (Nat.le_of_lt short), Nat.sub_self, if_pos rfl, places_cons,
        List.drop_append_of_le_length (by omega), span_drop]

theorem seek_nil_iff (iov : List Iovec) : ∀ seek, seekIov iov seek = [] ↔ countIov iov ≤ seek := by
  induction iov with
  | nil => intro seek; exact ⟨fun _ => Nat.zero_le seek, fun _ => rfl⟩
  | cons v rest ih =>
    intro seek
    have count : countIov (v :: rest) = v.len + countIov rest := rfl
    unfold seekIov
    dsimp only
    split
    · next passed =>
      have whole : v.len ≤ seek := by omega
      rw [ih, Nat.min_eq_right whole, count]
      omega
    · next inside =>
      have short : seek < v.len := by omega
      rw [Nat.min_eq_left (Nat.le_of_lt short), Nat.sub_self, if_pos rfl, count]
      constructor
      · intro never
        cases never
      · intro fits
        omega

theorem truncate_cons (v : Iovec) (rest : List Iovec) (length : Nat) :
    truncateIov (v :: rest) length = [⟨v.base, min length v.len⟩] := by
  exact if_pos (Nat.min_le_right length v.len)

def firstLen : List Iovec → Nat
  | [] => 0
  | v :: _ => v.len

theorem places_truncate (iov : List Iovec) (length : Nat) :
    places (truncateIov iov length) = (places iov).take (min length (firstLen iov)) := by
  cases iov with
  | nil => exact List.take_nil.symm
  | cons v rest =>
    have inside : min length v.len ≤ v.len := Nat.min_le_right length v.len
    have first := span_length v.base v.len
    rw [truncate_cons, places_cons, places_cons, firstLen,
      List.take_append_of_le_length (by omega), span_take inside]
    exact List.append_nil _

theorem first_le_count (iov : List Iovec) : firstLen iov ≤ countIov iov := by
  cases iov with
  | nil => exact Nat.le_refl 0
  | cons v rest => exact Nat.le_add_right v.len (countIov rest)

theorem count_truncate (iov : List Iovec) (length : Nat) :
    countIov (truncateIov iov length) = min length (firstLen iov) := by
  have inside := first_le_count iov
  rw [← places_length, places_truncate, List.length_take, places_length]
  omega

theorem copy_loop_count (iov : List Iovec) :
    ∀ (mem : Mem) (buf : List Byte), (copyLoop mem buf iov).2 = min buf.length (countIov iov) := by
  induction iov with
  | nil => intro mem buf; exact (Nat.min_zero _).symm
  | cons v rest ih =>
    intro mem buf
    have count : countIov (v :: rest) = v.len + countIov rest := rfl
    unfold copyLoop
    split
    · next empty =>
      rw [List.isEmpty_iff.mp empty]
      exact (Nat.zero_min _).symm
    · dsimp only
      rw [ih, List.length_drop, count]
      omega

theorem buf_to_iov_count (mem : Mem) (buf : List Byte) (iov : List Iovec) (seek : Nat) :
    (bufToIov mem buf iov seek).2 = min buf.length (countIov iov - seek) := by
  unfold bufToIov
  rw [copy_loop_count]
  split
  · rw [← places_length, places_seek, List.length_drop, places_length]
  · next start =>
    have zero : seek = 0 := by omega
    rw [zero, Nat.sub_zero]

end Iov
