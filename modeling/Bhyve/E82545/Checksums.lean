import Bhyve.E82545.Vectors
import Bhyve.Lib.OnesComplement

namespace E82545
open OnesComplement Fallible List BitVec

theorem buf_sum_eq (bytes : List Byte) : (bufSum bytes).toNat = wordSum bytes % 2 ^ 32 := by
  induction bytes using bufSum.induct with
  | case1 lo hi rest ih =>
    have word : ((hi ++ lo).setWidth 32).toNat = lo.toNat + 256 * hi.toNat := by
      rw [toNat_setWidth, toNat_append, Nat.shiftLeft_eq, ← Nat.shiftLeft_eq,
        ← Nat.shiftLeft_add_eq_or_of_lt (by omega), Nat.shiftLeft_eq, Nat.mod_eq_of_lt (by omega)]
      omega
    simp only [bufSum, wordSum, toNat_add, ih, word, Nat.add_mod_mod]
  | case2 b =>
    simp only [bufSum, wordSum, toNat_setWidth]
  | case3 => rfl

theorem carry_eq (sum : BitVec 32) : (carry sum).toNat = fold sum.toNat := by
  have low : (sum &&& (0xffff : BitVec 32)).toNat = sum.toNat % 65536 := by
    exact Nat.and_two_pow_sub_one_eq_mod sum.toNat 16
  have high : (sum >>> 16).toNat = sum.toNat / 65536 := by
    rw [toNat_ushiftRight, Nat.shiftRight_eq_div_pow]
  have folded : ((sum &&& (0xffff : BitVec 32)) + sum >>> 16).toNat =
      sum.toNat % 65536 + sum.toNat / 65536 := by
    rw [toNat_add, low, high, Nat.mod_eq_of_lt (by omega)]
  have same := same_halves sum.toNat
  refine eq_fold ?_ (carry sum).isLt
  unfold carry
  dsimp only
  generalize (sum &&& (0xffff : BitVec 32)) + sum >>> 16 = x at *
  have beyond : x > 0xffff ↔ 65535 < x.toNat := by
    rfl
  rw [← folded] at same
  split
  · next more =>
    rw [toNat_setWidth, toNat_sub_of_le (by rw [le_def]; exact more.le),
      show (0xffff : BitVec 32).toNat = 65535 from rfl, Nat.mod_eq_of_lt (by omega)]
    exact same_less more same
  · next less =>
    have less := Nat.not_lt.mp fun more => less (beyond.mpr more)
    rw [toNat_setWidth, Nat.mod_eq_of_lt (by omega)]
    exact same

def lost (piece : List Byte) : Nat := wordSum piece / 2 ^ 32

theorem buf_checksum_same (piece : List Byte) :
    Same ((bufChecksum piece).toNat + lost piece) (wordSum piece) := by
  have folded := same_fold (wordSum piece % 2 ^ 32)
  have split : Same (wordSum piece % 2 ^ 32 + lost piece) (wordSum piece) := by
    unfold lost
    constructor <;> omega
  unfold bufChecksum
  rw [carry_eq, buf_sum_eq]
  exact same_trans (same_add folded (same_refl _)) split

theorem lost_none {piece : List Byte} (short : piece.length ≤ 65536) : lost piece = 0 := by
  have bound := word_sum_le piece
  exact Nat.div_eq_of_lt (by omega)

theorem lost_sum_le {bound : Nat} {parts : List (List Byte)}
    (each : ∀ piece ∈ parts, lost piece ≤ bound) : (parts.map lost).sum ≤ bound * parts.length := by
  induction parts with
  | nil => exact Nat.le_refl _
  | cons piece rest ih =>
    have here := each piece mem_cons_self
    have later := ih fun other member => each other (mem_cons_of_mem piece member)
    simp only [map_cons, sum_cons, length_cons, Nat.mul_add, Nat.mul_one]
    omega

def laneSum : Bool → List (List Byte) → Nat
  | _, [] => 0
  | odd, piece :: rest => shifted odd (bufChecksum piece).toNat +
      laneSum (odd ^^ decide (piece.length % 2 = 1)) rest

theorem lane_sum_le (pieces : List (List Byte)) :
    ∀ odd, laneSum odd pieces ≤ 2 ^ 24 * pieces.length := by
  induction pieces with
  | nil => exact fun odd => Nat.le_refl _
  | cons piece rest ih =>
    intro odd
    have later := ih (odd ^^ decide (piece.length % 2 = 1))
    have here : shifted odd (bufChecksum piece).toNat ≤ 2 ^ 24 := by
      cases odd <;> simp only [shifted, Bool.false_eq_true, if_false, if_true] <;> omega
    simp only [laneSum, length_cons]
    omega

theorem lane_sum_same (pieces : List (List Byte)) : ∀ odd, ∃ even_lost odd_lost,
    even_lost + odd_lost = (pieces.map lost).sum ∧
      Same (laneSum odd pieces + (even_lost + 256 * odd_lost))
        (shifted odd (wordSum pieces.flatten)) := by
  induction pieces with
  | nil =>
    intro odd
    refine ⟨0, 0, rfl, ?_⟩
    cases odd <;> exact same_refl 0
  | cons piece rest ih =>
    intro odd
    obtain ⟨even_lost, odd_lost, total, same⟩ := ih (odd ^^ decide (piece.length % 2 = 1))
    have here := @shifted_same odd _ _ (buf_checksum_same piece)
    rw [shifted_add] at here
    have whole := @shifted_same odd _ _ (word_sum_append piece rest.flatten)
    rw [shifted_add] at whole
    have both := same_add here (same_trans same (same_symm (shifted_shifted odd _ _)))
    have joined := same_trans both (same_symm whole)
    simp only [laneSum, map_cons, sum_cons, flatten_cons, ← total]
    cases odd
    · refine ⟨lost piece + even_lost, odd_lost, by omega, ?_⟩
      simp only [shifted, Bool.false_eq_true, if_false] at joined ⊢
      convert joined using 1
      omega
    · refine ⟨even_lost, lost piece + odd_lost, by omega, ?_⟩
      simp only [shifted, if_true] at joined ⊢
      convert joined using 1
      omega

def slice (bytes : List Byte) (off n : Nat) : List Byte := (bytes.drop off).take n

theorem slice_append {first second : List Byte} {off n : Nat} (inside : off ≤ first.length) :
    slice (first ++ second) off n =
      (first.drop off).take n ++ slice second 0 (n - (first.length - off)) := by
  unfold slice
  rw [drop_append_of_le_length inside, take_append, length_drop, drop_zero]

theorem slice_append_after {first second : List Byte} {off n : Nat} (after : first.length ≤ off) :
    slice (first ++ second) off n = slice second (off - first.length) n := by
  unfold slice
  rw [drop_append, drop_of_length_le after, nil_append]

def pieces : List Iov → Nat → Nat → List (List Byte)
  | [], _, _ => []
  | iov :: rest, off, len =>
      if len = 0 then []
      else
        let now := min len (iov.len - off)
        (iov.bytes.drop off).take now :: pieces rest 0 (len - now)

def summed (iovs : List Iov) (off len : Nat) : List (List Byte) :=
  pieces (skipIovs off iovs).2 (skipIovs off iovs).1 len

theorem pieces_length_le (iovs : List Iov) :
    ∀ off len, (pieces iovs off len).length ≤ iovs.length := by
  induction iovs with
  | nil => exact fun off len => Nat.le_refl _
  | cons iov rest ih =>
    intro off len
    unfold pieces
    split
    · exact Nat.zero_le _
    · exact Nat.succ_le_succ (ih _ _)

theorem pieces_short {bound : Nat} (iovs : List Iov) : ∀ off len, (∀ iov ∈ iovs, iov.Whole) →
    (∀ iov ∈ iovs, iov.len ≤ bound) → ∀ piece ∈ pieces iovs off len, piece.length ≤ bound := by
  induction iovs with
  | nil => exact fun off len _ _ piece member => absurd member not_mem_nil
  | cons iov rest ih =>
    intro off len whole short piece member
    have size := whole_length (whole iov mem_cons_self)
    have small := short iov mem_cons_self
    unfold pieces at member
    split at member
    · exact absurd member not_mem_nil
    rcases List.mem_cons.mp member with rfl | later
    · rw [length_take, length_drop]
      omega
    · exact ih _ _ (fun iov' old => whole iov' (mem_cons_of_mem iov old))
        (fun iov' old => short iov' (mem_cons_of_mem iov old)) piece later

theorem pieces_flatten (iovs : List Iov) : ∀ off len, (∀ iov ∈ iovs, iov.Whole) →
    off ≤ (iovs.map Iov.len).headD 0 →
    (pieces iovs off len).flatten = slice (bytesOf iovs) off len := by
  induction iovs with
  | nil =>
    intro off len _ _
    simp [pieces, slice, bytesOf]
  | cons iov rest ih =>
    intro off len whole inside
    have size := whole_length (whole iov mem_cons_self)
    have within : off ≤ iov.len := inside
    unfold pieces
    by_cases nothing : len = 0
    · simp [slice, nothing]
    rw [if_neg nothing]
    dsimp only
    rw [flatten_cons, ih 0 _ (fun iov' old => whole iov' (mem_cons_of_mem iov old))
      (Nat.zero_le _), bytes_of_cons, slice_append (by omega), size]
    by_cases all : len ≤ iov.len - off
    · have exact_now : min len (iov.len - off) = len := by omega
      simp [slice, all]
    · have exact_now : min len (iov.len - off) = iov.len - off := by omega
      rw [exact_now, take_of_length_le (by rw [length_drop, size]),
        take_of_length_le (by rw [length_drop, size]; omega)]

theorem sum_iovs_eq (iovs : List Iov) : ∀ off len odd, (∀ iov ∈ iovs, iov.Whole) →
    iovs.length ≤ 128 → ∃ sum, sumIovs iovs off len odd = .ok sum ∧
      sum.toNat = laneSum odd (pieces iovs off len) := by
  induction iovs with
  | nil => exact fun off len odd _ _ => ⟨0, rfl, rfl⟩
  | cons iov rest ih =>
    intro off len odd whole few
    have size := whole_length (whole iov mem_cons_self)
    obtain ⟨bytes, base, -⟩ := whole iov mem_cons_self
    have value : iov.bytes = bytes := by rw [Iov.bytes, base, Option.getD_some]
    rw [length_cons] at few
    unfold sumIovs pieces
    by_cases nothing : len = 0
    · rw [if_pos nothing, if_pos nothing]
      exact ⟨0, rfl, rfl⟩
    rw [if_neg nothing, if_neg nothing]
    dsimp only
    generalize now_eq : min len (iov.len - off) = now
    obtain ⟨later, ran, rest_eq⟩ := ih 0 (len - now) (odd ^^ decide (now % 2 = 1))
      (fun iov' old => whole iov' (mem_cons_of_mem iov old)) (by omega)
    rw [ran, base, ← value]
    refine ⟨_, rfl, ?_⟩
    have bound := lane_sum_le (pieces rest 0 (len - now)) (odd ^^ decide (now % 2 = 1))
    have fewer := pieces_length_le rest 0 (len - now)
    have length : ((iov.bytes.drop off).take now).length = now := by
      rw [length_take, length_drop, size]
      omega
    simp only [laneSum, length]
    generalize (iov.bytes.drop off).take now = piece
    rw [toNat_add, rest_eq]
    cases odd
    · simp only [Bool.false_eq_true, if_false, toNat_setWidth, shifted]
      omega
    · simp only [if_true, toNat_shiftLeft, toNat_setWidth, shifted, Nat.shiftLeft_eq]
      omega

theorem skip_iovs_slice (iovs : List Iov) : ∀ off n, (∀ iov ∈ iovs, iov.Whole) →
    slice (bytesOf (skipIovs off iovs).2) (skipIovs off iovs).1 n = slice (bytesOf iovs) off n ∧
      ((skipIovs off iovs).2 = [] ∨
        (skipIovs off iovs).1 ≤ ((skipIovs off iovs).2.map Iov.len).headD 0) ∧
      (skipIovs off iovs).2.length ≤ iovs.length ∧
      ∀ iov ∈ (skipIovs off iovs).2, iov ∈ iovs := by
  induction iovs with
  | nil => exact fun off n _ => ⟨rfl, .inl rfl, Nat.le_refl _, fun _ member => member⟩
  | cons iov iovs ih =>
    intro off n whole
    unfold skipIovs
    by_cases skips : iov.len ≤ off ∧ 0 < off
    · rw [if_pos skips]
      obtain ⟨same, inside, fewer, members⟩ := ih (off - iov.len) n
        fun iov' member => whole iov' (mem_cons_of_mem iov member)
      have size := whole_length (whole iov mem_cons_self)
      refine ⟨?_, inside, Nat.le_succ_of_le fewer, fun iov' member =>
        mem_cons_of_mem iov (members iov' member)⟩
      rw [same, bytes_of_cons, slice_append_after (by omega), size]
    · rw [if_neg skips]
      refine ⟨rfl, .inr ?_, Nat.le_refl _, fun _ member => member⟩
      show off ≤ iov.len
      omega

section

variable {iovs : List Iov} (off len : Nat)

theorem summed_flatten (whole : ∀ iov ∈ iovs, iov.Whole) :
    (summed iovs off len).flatten = slice (bytesOf iovs) off len := by
  obtain ⟨same, inside, -, members⟩ := skip_iovs_slice iovs off len whole
  rw [← same]
  rcases inside with empty | inside
  · simp [summed, empty, pieces, slice, bytesOf]
  · exact pieces_flatten _ _ _ (fun iov member => whole iov (members iov member)) inside

theorem summed_short {bound : Nat} (whole : ∀ iov ∈ iovs, iov.Whole)
    (short : ∀ iov ∈ iovs, iov.len ≤ bound) :
    ∀ piece ∈ summed iovs off len, piece.length ≤ bound := by
  obtain ⟨-, -, -, members⟩ := skip_iovs_slice iovs off len whole
  exact pieces_short _ _ _ (fun iov member => whole iov (members iov member))
    fun iov member => short iov (members iov member)

theorem summed_length_le (whole : ∀ iov ∈ iovs, iov.Whole) :
    (summed iovs off len).length ≤ iovs.length :=
  Nat.le_trans (pieces_length_le _ _ _) (skip_iovs_slice iovs off len whole).2.2.1

theorem iov_checksum_lanes (whole : ∀ iov ∈ iovs, iov.Whole) (few : iovs.length ≤ 128) :
    ∃ cksum, iovChecksum iovs off len = .ok cksum ∧
      cksum.toNat = fold (laneSum false (summed iovs off len)) := by
  obtain ⟨-, -, fewer, members⟩ := skip_iovs_slice iovs off len whole
  obtain ⟨sum, ran, value⟩ := sum_iovs_eq (skipIovs off iovs).2 (skipIovs off iovs).1 len false
    (fun iov member => whole iov (members iov member)) (Nat.le_trans fewer few)
  refine ⟨carry sum, ?_, ?_⟩
  · unfold iovChecksum
    dsimp only
    rw [ran]
  · rw [carry_eq, value]
    rfl

theorem summed_same (whole : ∀ iov ∈ iovs, iov.Whole) : ∃ even_lost odd_lost,
    even_lost + odd_lost = ((summed iovs off len).map lost).sum ∧
      Same (laneSum false (summed iovs off len) + (even_lost + 256 * odd_lost))
        (wordSum (slice (bytesOf iovs) off len)) := by
  rw [← summed_flatten off len whole]
  exact lane_sum_same _ false

theorem iov_checksum_eq {off len : Nat} {cksum : BitVec 16} (whole : ∀ iov ∈ iovs, iov.Whole)
    (short : ∀ iov ∈ iovs, iov.len ≤ 65536) (few : iovs.length ≤ 128)
    (ran : iovChecksum iovs off len = .ok cksum) :
    cksum.toNat = fold (wordSum (slice (bytesOf iovs) off len)) := by
  obtain ⟨other, returned, value⟩ := iov_checksum_lanes off len whole few
  obtain ⟨even_lost, odd_lost, total, same⟩ := summed_same off len whole
  cases returned.symm.trans ran
  have kept := lost_sum_le fun piece member =>
    Nat.le_of_eq (lost_none (summed_short off len whole short piece member))
  have nothing : even_lost + 256 * odd_lost = 0 := by omega
  rw [nothing] at same
  rw [value]
  exact fold_same same

end
end E82545
