import Bhyve.E82545.Checksums

namespace E82545
open OnesComplement List

section

def shares : List Iov → Nat → Nat → List (List Byte)
  | [], _, _ => []
  | iov :: rest, off, len =>
      slice iov.bytes off len :: shares rest (off - iov.len) (len - (iov.len - off))

/-- The folded sum of the range, for which no sum of 32 bits is cut off. -/
structure Exact (iovs : List Iov) (off len : Nat) : Prop where
  value : ∃ cksum, iovChecksum iovs off len = .ok cksum ∧
    cksum.toNat = fold (wordSum (slice (bytesOf iovs) off len))
  inner : ∀ piece ∈ summed iovs off len, (bufSum piece).toNat = wordSum piece
  outer : ∃ sum, sumIovs (skipIovs off iovs).2 (skipIovs off iovs).1 len false = .ok sum ∧
    sum.toNat = laneSum false (summed iovs off len)

theorem shares_none (iovs : List Iov) : ∀ off, ∀ share ∈ shares iovs off 0, share = [] := by
  induction iovs with
  | nil => simp [shares]
  | cons iov rest ih =>
    intro off share member
    rw [shares, Nat.zero_sub] at member
    rcases List.mem_cons.mp member with rfl | later
    · exact take_zero
    · exact ih _ share later

theorem lost_nil : lost [] = 0 := rfl

theorem pieces_lost (iovs : List Iov) : ∀ off len, (∀ iov ∈ iovs, iov.Whole) →
    off ≤ (iovs.map Iov.len).headD 0 → ((∀ piece ∈ pieces iovs off len, lost piece = 0) ↔
      ∀ share ∈ shares iovs off len, lost share = 0) := by
  induction iovs with
  | nil => simp [pieces, shares]
  | cons iov rest ih =>
    intro off len whole inside
    have size := whole_length (whole iov mem_cons_self)
    have within : off ≤ iov.len := inside
    by_cases nothing : len = 0
    · subst nothing
      have empty := shares_none (iov :: rest) off
      simp only [pieces, if_pos, not_mem_nil, false_implies, implies_true, true_iff]
      intro share member
      rw [empty share member, lost_nil]
    have later := ih 0 (len - (iov.len - off))
      (fun iov' old => whole iov' (mem_cons_of_mem iov old)) (Nat.zero_le _)
    have left : len - min len (iov.len - off) = len - (iov.len - off) := by omega
    have here : (iov.bytes.drop off).take (min len (iov.len - off)) = slice iov.bytes off len := by
      rw [slice, ← size, ← length_drop, ← take_take, take_length]
    have start : off - iov.len = 0 := by omega
    simp only [pieces, shares, if_neg nothing, forall_mem_cons, left, here, start, later]

theorem skipped_lost (len : Nat) (iovs : List Iov) : ∀ off, (∀ iov ∈ iovs, iov.Whole) →
    ((∀ share ∈ shares (skipIovs off iovs).2 (skipIovs off iovs).1 len, lost share = 0) ↔
      ∀ share ∈ shares iovs off len, lost share = 0) := by
  induction iovs with
  | nil => exact fun off _ => Iff.rfl
  | cons iov rest ih =>
    intro off whole
    have size := whole_length (whole iov mem_cons_self)
    unfold skipIovs
    by_cases skips : iov.len ≤ off ∧ 0 < off
    · rw [if_pos skips, ih _ fun iov' old => whole iov' (mem_cons_of_mem iov old)]
      have before : slice iov.bytes off len = [] := by
        rw [slice, drop_of_length_le (by omega), take_nil]
      have none_here : iov.len - off = 0 := by omega
      simp only [shares, forall_mem_cons, before, none_here, lost_nil, true_and, Nat.sub_zero]
    · rw [if_neg skips]

variable {iovs : List Iov} (off len : Nat)

theorem summed_lost (whole : ∀ iov ∈ iovs, iov.Whole) :
    (∀ piece ∈ summed iovs off len, lost piece = 0) ↔
      ∀ share ∈ shares iovs off len, lost share = 0 := by
  obtain ⟨-, inside, -, members⟩ := skip_iovs_slice iovs off len whole
  rw [← skipped_lost len iovs off whole]
  rcases inside with empty | within
  · simp [summed, empty, pieces, shares]
  · exact pieces_lost _ _ _ (fun iov member => whole iov (members iov member)) within

theorem lost_le {piece : List Byte} (short : piece.length ≤ 2 ^ 20) : lost piece ≤ 7 := by
  have bound := word_sum_le piece
  unfold lost
  omega

section
variable (whole : ∀ iov ∈ iovs, iov.Whole) (short : ∀ iov ∈ iovs, iov.len ≤ 2 ^ 20)
  (few : iovs.length ≤ 64)
include whole short few

theorem value_lost (value : ∃ cksum, iovChecksum iovs off len = .ok cksum ∧
      cksum.toNat = fold (wordSum (slice (bytesOf iovs) off len))) :
    ∀ piece ∈ summed iovs off len, lost piece = 0 := by
  obtain ⟨cksum, returned, folded⟩ := value
  obtain ⟨other, ran, lanes⟩ := iov_checksum_lanes off len whole (by omega)
  obtain ⟨even_lost, odd_lost, total, same⟩ := summed_same off len whole
  cases ran.symm.trans returned
  have equal := same_of_fold (lanes.symm.trans folded)
  have each := lost_sum_le fun piece member => lost_le (summed_short off len whole short piece member)
  have count : (summed iovs off len).length ≤ iovs.length := summed_length_le off len whole
  -- 65535 = 255 + 256 * 255 takes 510 carries, and there are at most 448
  have gap := same_trans same (same_symm equal)
  have none_lost : even_lost + odd_lost = 0 := by
    obtain ⟨multiple, -⟩ := gap
    omega
  have all := List.sum_eq_zero_iff_forall_eq_nat.mp (total.symm.trans none_lost)
  exact fun piece member => all _ (List.mem_map_of_mem member)

/-- The checksum over vectors is exact just when the range has, in no vector, words that add up to
    2^32 or more. -/
theorem iov_checksum_iff :
    Exact iovs off len ↔ ∀ share ∈ shares iovs off len, wordSum share < 2 ^ 32 := by
  have lost_iff : ∀ share : List Byte, wordSum share < 2 ^ 32 ↔ lost share = 0 := by
    intro share
    unfold lost
    omega
  simp only [lost_iff]
  rw [← summed_lost off len whole]
  refine ⟨fun right => value_lost off len whole short few right.value, fun kept => ?_⟩
  obtain ⟨cksum, returned, lanes⟩ := iov_checksum_lanes off len whole (by omega)
  obtain ⟨even_lost, odd_lost, total, same⟩ := summed_same off len whole
  have none_lost := lost_sum_le fun piece member => Nat.le_of_eq (kept piece member)
  have nothing : even_lost + 256 * odd_lost = 0 := by omega
  rw [nothing] at same
  refine ⟨⟨cksum, returned, lanes.trans (fold_same same)⟩, fun piece member => ?_, ?_⟩
  · rw [buf_sum_eq, Nat.mod_eq_of_lt ((lost_iff piece).mpr (kept piece member))]
  · obtain ⟨-, -, fewer, members⟩ := skip_iovs_slice iovs off len whole
    exact sum_iovs_eq _ _ _ _ (fun iov member => whole iov (members iov member)) (by omega)

end

theorem iov_checksum_split : Exact [⟨some [1, 2, 3], 3⟩, ⟨some [], 0⟩, ⟨some [4, 5], 2⟩] 1 3 :=
  (iov_checksum_iff 1 3
    (by
      simp only [forall_mem_cons, not_mem_nil, false_implies, implies_true, and_true]
      exact ⟨⟨_, rfl, rfl⟩, ⟨_, rfl, rfl⟩, ⟨_, rfl, rfl⟩⟩)
    (by decide) (by decide)).mpr (by decide)

def ones (n : Nat) : Iov := ⟨some (List.replicate (2 * n) 0xff), 2 * n⟩

theorem ones_whole (n : Nat) : ∀ iov ∈ [ones n], iov.Whole := by
  intro iov member
  rw [List.mem_singleton.mp member]
  exact ⟨_, rfl, length_replicate⟩

theorem ones_short {n : Nat} (short : n ≤ 2 ^ 19) : ∀ iov ∈ [ones n], iov.len ≤ 2 ^ 20 := by
  intro iov member
  rw [List.mem_singleton.mp member]
  show 2 * n ≤ 2 ^ 20
  omega

theorem ones_lost {n : Nat} (many : 65538 ≤ n) (short : ∀ iov ∈ [ones n], iov.len ≤ 2 ^ 20) :
    ¬ Exact [ones n] 0 (2 * n) := by
  intro right
  have kept := (summed_lost 0 (2 * n) (ones_whole n)).mp
    (value_lost 0 (2 * n) (ones_whole n) short (Nat.le_of_ble_eq_true rfl) right.value)
    (slice (ones n).bytes 0 (2 * n)) mem_cons_self
  have all : slice (ones n).bytes 0 (2 * n) = List.replicate (2 * n) 0xff :=
    take_of_length_le (Nat.le_of_eq length_replicate)
  rw [all, lost, word_sum_ones] at kept
  omega

theorem carry_dropped : ¬ ∀ (iovs : List Iov) (off len : Nat), (∀ iov ∈ iovs, iov.Whole) →
    (∀ iov ∈ iovs, iov.len ≤ 2 ^ 20) → iovs.length ≤ 64 → Exact iovs off len := by
  intro exact_always
  have short := @ones_short 65538 (by decide)
  exact ones_lost (Nat.le_refl 65538) short
    (exact_always [ones 65538] 0 (2 * 65538) (ones_whole 65538) short (Nat.le_of_ble_eq_true rfl))

end
end E82545
