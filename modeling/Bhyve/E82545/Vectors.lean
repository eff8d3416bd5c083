import Bhyve.E82545.Transmit
import Bhyve.Lib.Fallible

namespace E82545
open Fallible List Option

section

def Iov.Whole (iov : Iov) : Prop := ∃ bytes, iov.base = some bytes ∧ bytes.length = iov.len

def Iov.bytes (iov : Iov) : List Byte := iov.base.getD []

def bytesOf (iovs : List Iov) : List Byte := iovs.flatMap Iov.bytes

def totalLen (iovs : List Iov) : Nat := (iovs.map Iov.len).sum

theorem bytes_of_cons (iov : Iov) (iovs : List Iov) :
    bytesOf (iov :: iovs) = iov.bytes ++ bytesOf iovs := flatMap_cons

theorem total_len_cons (iov : Iov) (iovs : List Iov) :
    totalLen (iov :: iovs) = iov.len + totalLen iovs := by
  simp [totalLen]

variable {iov : Iov}

theorem whole_length (whole : iov.Whole) : iov.bytes.length = iov.len := by
  obtain ⟨bytes, base, length⟩ := whole
  rw [Iov.bytes, base, getD_some, length]

theorem bytes_length {iovs : List Iov} (whole : ∀ iov ∈ iovs, iov.Whole) :
    (bytesOf iovs).length = totalLen iovs := by
  induction iovs with
  | nil => rfl
  | cons iov iovs ih =>
    rw [bytes_of_cons, total_len_cons, length_append,
      whole_length (whole iov mem_cons_self),
      ih fun iov' member => whole iov' (mem_cons_of_mem iov member)]

theorem take_whole {n : Nat} (whole : iov.Whole) (few : n ≤ iov.len) :
    (iov.take n).Whole ∧ (iov.take n).bytes = iov.bytes.take n := by
  obtain ⟨bytes, base, length⟩ := whole
  refine ⟨⟨bytes.take n, ?_, ?_⟩, ?_⟩
  · rw [Iov.take, base, map_some]
  · rw [length_take]
    show min n bytes.length = n
    omega
  · simp only [Iov.take, Iov.bytes, base, map_some, getD_some]

theorem drop_whole {n : Nat} (whole : iov.Whole) :
    (iov.drop n).Whole ∧ (iov.drop n).bytes = iov.bytes.drop n := by
  obtain ⟨bytes, base, length⟩ := whole
  refine ⟨⟨bytes.drop n, ?_, ?_⟩, ?_⟩
  · rw [Iov.drop, base, map_some]
  · rw [length_drop]
    show bytes.length - n = iov.len - n
    rw [length]
  · simp only [Iov.drop, Iov.bytes, base, map_some, getD_some]

/-- What a copy of the header comes to: its bytes are the first, and the vectors after it have the
    others. -/
structure Copied (iovs : List Iov) (left : Nat) (hdr : List Byte) (rest : List Iov) : Prop where
  length : hdr.length = left
  whole : ∀ iov ∈ rest, iov.Whole
  count : rest.length ≤ iovs.length
  bytes : bytesOf iovs = hdr ++ bytesOf rest

theorem copy_hdr_goes (iovs : List Iov) : ∀ left, (∀ iov ∈ iovs, iov.Whole) →
    left ≤ totalLen iovs → ∃ hdr rest, copyHdr left iovs = .ok (hdr, rest) ∧
      Copied iovs left hdr rest := by
  induction iovs with
  | nil =>
    intro left _ inside
    have zero : left = 0 := Nat.le_zero.mp inside
    subst zero
    exact ⟨[], [], rfl, rfl, nofun, Nat.le_refl _, rfl⟩
  | cons iov iovs ih =>
    intro left whole inside
    have here := whole iov mem_cons_self
    have later := fun iov' member => whole iov' (mem_cons_of_mem iov member)
    rw [total_len_cons] at inside
    unfold copyHdr
    by_cases none_left : left = 0
    · subst none_left
      exact ⟨[], _, rfl, rfl, whole, Nat.le_refl _, rfl⟩
    rw [if_neg none_left]
    obtain ⟨bytes, base, length⟩ := here
    by_cases part : left < iov.len
    · rw [if_pos part, base]
      refine ⟨_, _, rfl, ?_, ?_, Nat.le_refl _, ?_⟩
      · rw [length_take]
        omega
      · intro iov' member
        rcases List.mem_cons.mp member with rfl | old
        · exact (drop_whole (whole iov mem_cons_self)).1
        · exact later iov' old
      · rw [bytes_of_cons, bytes_of_cons, (drop_whole (whole iov mem_cons_self)).2,
          ← List.append_assoc, Iov.bytes, base, getD_some, take_append_drop]
    · rw [if_neg part]
      obtain ⟨hdr, rest, copied, good⟩ := ih (left - iov.len) later (by omega)
      rw [base, copied]
      refine ⟨_, _, rfl, ?_, good.whole, Nat.le_succ_of_le good.count, ?_⟩
      · rw [length_append, length_take, good.length]
        omega
      · rw [bytes_of_cons, good.bytes, take_of_length_le (Nat.le_of_eq length),
          List.append_assoc, Iov.bytes, base, getD_some]

structure Taken (nleft : Nat) (pay pieces rest : List Iov) : Prop where
  whole : (∀ iov ∈ pieces, iov.Whole) ∧ ∀ iov ∈ rest, iov.Whole
  count : pieces.length ≤ pay.length ∧ rest.length ≤ pay.length
  bytes : bytesOf pieces = (bytesOf pay).take nleft ∧ bytesOf rest = (bytesOf pay).drop nleft
  short : ∀ iov ∈ pieces, iov.len ≤ nleft

theorem take_payload_takes (pay : List Iov) : ∀ nleft, (∀ iov ∈ pay, iov.Whole) →
    Taken nleft pay (takePayload nleft pay).1 (takePayload nleft pay).2 := by
  induction pay with
  | nil =>
    intro nleft _
    refine ⟨⟨nofun, nofun⟩,
      ⟨Nat.le_refl _, Nat.le_refl _⟩, ?_, nofun⟩
    constructor <;> simp [takePayload, bytesOf]
  | cons iov pay ih =>
    intro nleft whole
    have here := whole iov mem_cons_self
    have later := fun iov' member => whole iov' (mem_cons_of_mem iov member)
    unfold takePayload
    by_cases none_left : nleft = 0
    · subst none_left
      exact ⟨⟨nofun, whole⟩, ⟨Nat.zero_le _, Nat.le_refl _⟩,
        ⟨rfl, rfl⟩, nofun⟩
    rw [if_neg none_left]
    by_cases all : min nleft iov.len = iov.len
    · rw [if_pos all]
      have good := ih (nleft - iov.len) later
      obtain ⟨first, same⟩ := take_whole (n := iov.len) here (Nat.le_refl _)
      have enough : iov.len ≤ nleft := by omega
      have size := whole_length here
      have here_all : iov.bytes.take iov.len = iov.bytes := take_of_length_le (by omega)
      have all_taken : iov.bytes.take nleft = iov.bytes := take_of_length_le (by omega)
      have none_dropped : iov.bytes.drop nleft = [] := drop_of_length_le (by omega)
      rw [all]
      refine ⟨⟨?_, good.whole.2⟩, ?_, ⟨?_, ?_⟩, ?_⟩
      · intro iov' member
        rcases List.mem_cons.mp member with rfl | old
        · exact first
        · exact good.whole.1 iov' old
      · have counts := good.count
        simp only [length_cons]
        omega
      · rw [bytes_of_cons, bytes_of_cons, same, good.bytes.1, take_append, size, here_all,
          all_taken]
      · rw [bytes_of_cons, good.bytes.2, drop_append, size, none_dropped, nil_append]
      · intro iov' member
        rcases List.mem_cons.mp member with rfl | old
        · exact enough
        · exact Nat.le_trans (good.short iov' old) (Nat.sub_le _ _)
    · rw [if_neg all]
      have part : min nleft iov.len = nleft := by omega
      have short : nleft ≤ iov.len := by omega
      obtain ⟨first, same⟩ := take_whole here short
      obtain ⟨last, others⟩ := drop_whole (n := nleft) here
      have size := whole_length here
      rw [part]
      refine ⟨⟨?_, ?_⟩, ?_, ⟨?_, ?_⟩, ?_⟩
      · intro iov' member
        rw [List.mem_singleton.mp member]
        exact first
      · intro iov' member
        rcases List.mem_cons.mp member with rfl | old
        · exact last
        · exact later iov' old
      · simp
      · rw [bytes_of_cons, bytes_of_cons, same, take_append_of_le_length (by omega)]
        simp [bytesOf]
      · rw [bytes_of_cons, bytes_of_cons, others, drop_append_of_le_length (by omega)]
      · intro iov' member
        rw [List.mem_singleton.mp member]
        exact Nat.le_refl nleft

theorem sum_iovs_goes (iovs : List Iov) : ∀ off len odd, (∀ iov ∈ iovs, iov.Whole) →
    ∃ sum, sumIovs iovs off len odd = .ok sum := by
  induction iovs with
  | nil => exact fun off len odd _ => ⟨0, rfl⟩
  | cons iov iovs ih =>
    intro off len odd whole
    obtain ⟨bytes, base, -⟩ := whole iov mem_cons_self
    unfold sumIovs
    split
    · exact ⟨0, rfl⟩
    · obtain ⟨sum, ran⟩ := ih 0 (len - min len (iov.len - off))
        (odd ^^ decide (min len (iov.len - off) % 2 = 1))
        fun iov' member => whole iov' (mem_cons_of_mem iov member)
      dsimp only
      rw [base, ran]
      exact ⟨_, rfl⟩

theorem skip_iovs_whole (iovs : List Iov) : ∀ off, (∀ iov ∈ iovs, iov.Whole) →
    ∀ iov ∈ (skipIovs off iovs).2, iov.Whole := by
  induction iovs with
  | nil => exact fun off whole => whole
  | cons iov iovs ih =>
    intro off whole
    unfold skipIovs
    split
    · exact ih _ fun iov' member => whole iov' (mem_cons_of_mem iov member)
    · exact whole

theorem iov_checksum_goes {iovs : List Iov} (off len : Nat) (whole : ∀ iov ∈ iovs, iov.Whole) :
    ∃ cksum, iovChecksum iovs off len = .ok cksum := by
  obtain ⟨sum, ran⟩ := sum_iovs_goes (skipIovs off iovs).2 (skipIovs off iovs).1 len false
    (skip_iovs_whole iovs off whole)
  refine ⟨carry sum, ?_⟩
  unfold iovChecksum
  dsimp only
  rw [ran]

end

section

variable {hdr : List Byte} {off : Nat}

theorem read_goes {n : Nat} (inside : off + n ≤ hdr.length) :
    readBytes hdr off n = .ok ((hdr.drop off).take n) := if_pos inside

theorem read_if_goes {used : Bool} {n : Nat} (inside : used = true → off + n ≤ hdr.length) :
    readIf used hdr off n = .ok (if used then (hdr.drop off).take n else []) := by
  unfold readIf
  split
  · next use => exact read_goes (inside use)
  · rfl

def replaced (hdr : List Byte) (off : Nat) (bytes : List Byte) : List Byte :=
  hdr.take off ++ bytes ++ hdr.drop (off + bytes.length)

theorem write_goes {bytes : List Byte} (inside : off + bytes.length ≤ hdr.length) :
    writeBytes hdr off bytes = .ok (replaced hdr off bytes) := if_pos inside

theorem replaced_length {hdr : List Byte} {off : Nat} {bytes : List Byte}
    (inside : off + bytes.length ≤ hdr.length) : (replaced hdr off bytes).length = hdr.length := by
  simp only [replaced, length_append, length_take, length_drop]
  omega

theorem header_whole (hdr : List Byte) : Iov.Whole ⟨some hdr, hdr.length⟩ := ⟨hdr, rfl, rfl⟩

theorem transmit_checksum_goes {hdr : List Byte} {rest : List Iov} {ck : CkInfo}
    (whole : ∀ iov ∈ rest, iov.Whole) (inside : ck.off.toNat + 2 ≤ hdr.length) :
    ∃ hdr', transmitChecksum hdr rest ck = .ok hdr' ∧ hdr'.length = hdr.length := by
  obtain ⟨cksum, ran⟩ := @iov_checksum_goes (⟨some hdr, hdr.length⟩ :: rest) ck.start.toNat
    (ckLen ck) fun iov member => by
      rcases List.mem_cons.mp member with rfl | old
      · exact header_whole hdr
      · exact whole iov old
  unfold transmitChecksum
  rw [ran]
  exact ⟨_, write_goes inside, replaced_length inside⟩

end
end E82545
