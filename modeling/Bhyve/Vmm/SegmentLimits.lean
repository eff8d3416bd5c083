import Bhyve.Vmm.LinearAddress

namespace VmmLinearAddress
open VmmDecoder

def CodeSegment (desc : SegDesc) : Prop := (segDescType desc.access).getLsbD 3 = true

def ExpandDown (desc : SegDesc) : Prop :=
  (segDescType desc.access).getLsbD 3 = false ∧ (segDescType desc.access).getLsbD 2 = true

variable (desc : SegDesc)

/-- Bit 1 of the type makes code readable and data writable. -/
def Permitted (prot : Prot) : Prop :=
  (prot.read = true → CodeSegment desc → (segDescType desc.access).getLsbD 1 = true) ∧
  (prot.write = true → ¬ CodeSegment desc ∧ (segDescType desc.access).getLsbD 1 = true)

def topOffset (desc : SegDesc) : Nat := if segDescDef32 desc.access then 0xffffffff else 0xffff

def InSegment (offset : Nat) : Prop :=
  (ExpandDown desc → desc.limit.toNat < offset ∧ offset ≤ topOffset desc) ∧
  (¬ ExpandDown desc → offset ≤ desc.limit.toNat)

def byteOffset (offset : BitVec 64) (addrsize k : Nat) : Nat :=
  (offset.toNat + k) % 2 ^ (8 * addrsize)

structure LoadedSegment (desc : SegDesc) : Prop where
  usable : segDescUnusable desc.access = false
  present : segDescPresent desc.access = true
  memory : 16 ≤ (segDescType desc.access).toNat

/-- What vie_calculate_gla asserts of its other arguments outside 64-bit mode. -/
structure SegmentOperand (cpuMode : CpuMode) (seg : VmRegName) (length addrsize : Nat) : Prop where
  narrow : cpuMode ≠ .bits64
  segment : isSegment seg = true
  length : length ∈ [1, 2, 4, 8]
  addrsize : addrsize = 2 ∨ addrsize = 4

/-- An address is returned exactly for a permitted access inside the segment, and it is the base
    and the offset cut to the address size, added modulo 2^32. -/
def GlaChecked (cpuMode : CpuMode) (seg : VmRegName) (desc : SegDesc) (offset : BitVec 64)
    (length addrsize : Nat) (prot : Prot) : Prop :=
  ((vieCalculateGla cpuMode seg desc offset length addrsize prot).isSome = true ↔
    Permitted desc prot ∧ ∀ k, k < length → InSegment desc (byteOffset offset addrsize k)) ∧
  ∀ gla, vieCalculateGla cpuMode seg desc offset length addrsize prot = some gla →
    gla.toNat = (desc.base.toNat + offset.toNat % 2 ^ (8 * addrsize)) % 2 ^ 32

theorem type_of_five_bits {P : BitVec 32 → Prop} (all : ∀ type : BitVec 5, P (type.setWidth 32))
    (access : BitVec 32) : P (segDescType access) := by
  have five : segDescType access = (access.setWidth 5).setWidth 32 := by
    rw [← BitVec.toNat_inj, segDescType, BitVec.toNat_and, BitVec.toNat_setWidth,
      BitVec.toNat_setWidth]
    have cut : access.toNat &&& 0x1f = access.toNat % 2 ^ 5 :=
      Nat.and_two_pow_sub_one_eq_mod access.toNat 5
    exact cut.trans (by omega)
  rw [five]
  exact all _

theorem type_refused_iff (prot : Prot) (access : BitVec 32) :
    accessRefused (segDescType access) prot = false ↔
      (prot.read = true → (segDescType access).getLsbD 3 = true →
        (segDescType access).getLsbD 1 = true) ∧
      (prot.write = true → ¬ (segDescType access).getLsbD 3 = true ∧
        (segDescType access).getLsbD 1 = true) := by
  obtain ⟨reads, writes⟩ := prot
  refine type_of_five_bits (P := fun type => accessRefused type ⟨reads, writes⟩ = false ↔
    (reads = true → type.getLsbD 3 = true → type.getLsbD 1 = true) ∧
      (writes = true → ¬ type.getLsbD 3 = true ∧ type.getLsbD 1 = true)) ?_ access
  revert reads writes
  decide

theorem access_refused_iff (prot : Prot) :
    accessRefused (segDescType desc.access) prot = false ↔ Permitted desc prot :=
  type_refused_iff prot desc.access

theorem expand_down_iff : segDescType desc.access &&& 0xc = 0x4 ↔ ExpandDown desc := by
  exact type_of_five_bits (P := fun type => type &&& 0xc = 0x4 ↔
    type.getLsbD 3 = false ∧ type.getLsbD 2 = true) (by decide) desc.access

theorem limits_of_expand_down {desc : SegDesc} (down : ExpandDown desc) :
    (lowLimit desc).toNat = (desc.limit.toNat + 1) % 2 ^ 32 ∧
      (highLimit desc).toNat = topOffset desc := by
  rw [← expand_down_iff] at down
  unfold lowLimit highLimit topOffset
  rw [if_pos down, if_pos down]
  constructor
  · rw [BitVec.toNat_setWidth, BitVec.toNat_add]
    exact Nat.mod_eq_of_lt (Nat.lt_trans (Nat.mod_lt _ (by decide)) (by decide))
  · split <;> rfl

theorem limits_of_expand_up {desc : SegDesc} (up : ¬ ExpandDown desc) :
    (lowLimit desc).toNat = 0 ∧ (highLimit desc).toNat = desc.limit.toNat := by
  rw [← expand_down_iff] at up
  unfold lowLimit highLimit
  rw [if_neg up, if_neg up, BitVec.toNat_setWidth]
  exact ⟨rfl, Nat.mod_eq_of_lt (by have := desc.limit.isLt; omega)⟩

theorem within_limits_iff {addrsize : Nat} (sized : addrsize = 2 ∨ addrsize = 4)
    (length : Nat) (offset : BitVec 64) :
    withinLimits desc addrsize length offset = true ↔ ∀ k, k < length →
      (lowLimit desc).toNat ≤ byteOffset offset addrsize k ∧
        byteOffset offset addrsize k ≤ (highLimit desc).toNat := by
  have known : addrsize ∈ [2, 4, 8] := by
    rcases sized with rfl | rfl <;> simp
  have narrow : 2 ^ (8 * addrsize) ≤ 2 ^ 32 := by
    rcases sized with rfl | rfl <;> decide
  induction length generalizing offset with
  | zero => simp [withinLimits]
  | succ length ih =>
    have first : (offset &&& vieSize2mask addrsize).toNat = byteOffset offset addrsize 0 :=
      size_mask_to_nat known offset
    have next (k : Nat) : byteOffset ((offset &&& vieSize2mask addrsize) + 1) addrsize k =
        byteOffset offset addrsize (k + 1) := by
      have cut : offset.toNat % 2 ^ (8 * addrsize) < 2 ^ (8 * addrsize) :=
        Nat.mod_lt _ (Nat.two_pow_pos _)
      have added : ((offset &&& vieSize2mask addrsize) + 1).toNat =
          offset.toNat % 2 ^ (8 * addrsize) + 1 := by
        rw [BitVec.toNat_add, size_mask_to_nat known]
        exact Nat.mod_eq_of_lt (by simp; omega)
      simp only [byteOffset]
      rw [added, Nat.add_assoc, Nat.mod_add_mod, Nat.add_comm 1 k]
    simp only [withinLimits]
    have compared : (offset &&& vieSize2mask addrsize < lowLimit desc ∨
        highLimit desc < offset &&& vieSize2mask addrsize) ↔
        ¬ ((lowLimit desc).toNat ≤ byteOffset offset addrsize 0 ∧
          byteOffset offset addrsize 0 ≤ (highLimit desc).toNat) := by
      rw [BitVec.lt_def, BitVec.lt_def, first]
      omega
    by_cases inside : (lowLimit desc).toNat ≤ byteOffset offset addrsize 0 ∧
        byteOffset offset addrsize 0 ≤ (highLimit desc).toNat
    · rw [if_neg (by simpa only [compared, not_not] using inside)]
      simp only [ih, next]
      constructor
      · intro rest k upto
        cases k with
        | zero => exact inside
        | succ k => exact rest k (by omega)
      · intro all k upto
        exact all (k + 1) (by omega)
    · rw [if_pos (compared.mpr inside)]
      simp only [Bool.false_eq_true, false_iff]
      intro all
      exact inside (all 0 (by omega))

section

/-- The segment that ends where it starts: expand-down with the greatest limit. The access is
    permitted and no byte of it is above the top of the segment. -/
def EmptySegmentUsed (offset : BitVec 64) (length addrsize : Nat) (prot : Prot) : Prop :=
  ExpandDown desc ∧ desc.limit = 0xffffffff ∧ Permitted desc prot ∧
    ∀ k, k < length → byteOffset offset addrsize k ≤ topOffset desc

variable {cpuMode : CpuMode} {seg : VmRegName} {desc : SegDesc} {length addrsize : Nat}

theorem calculate_gla_eq (loaded : LoadedSegment desc)
    (operand : SegmentOperand cpuMode seg length addrsize) (offset : BitVec 64) (prot : Prot) :
    vieCalculateGla cpuMode seg desc offset length addrsize prot =
      if accessRefused (segDescType desc.access) prot = false ∧
          withinLimits desc addrsize length offset = true then
        some ((desc.base + (offset &&& vieSize2mask addrsize)) &&& vieSize2mask 4)
      else none := by
  obtain ⟨narrow, segment, length_ok, sized⟩ := operand
  have asserted : ¬ (isSegment seg = false ∨ length ∉ [1, 2, 4, 8] ∨
      addrsize ∉ addressSizes cpuMode) := by
    rw [addressSizes, if_neg narrow, segment]
    rcases sized with rfl | rfl <;> simp [length_ok]
  have base : segmentBase cpuMode seg desc = desc.base := by
    rw [segmentBase, if_neg (fun wide => narrow wide.1)]
  simp only [vieCalculateGla]
  rw [if_neg asserted, segmentAllows, loaded.usable, loaded.present, base, glaSize,
    if_neg narrow, decide_eq_true loaded.memory]
  cases accessRefused (segDescType desc.access) prot with
  | true => simp [narrow]
  | false =>
    cases withinLimits desc addrsize length offset with
    | true => simp
    | false => simp [narrow]

theorem gla_to_nat (sized : addrsize = 2 ∨ addrsize = 4) (base offset : BitVec 64) :
    ((base + (offset &&& vieSize2mask addrsize)) &&& vieSize2mask 4).toNat =
      (base.toNat + offset.toNat % 2 ^ (8 * addrsize)) % 2 ^ 32 := by
  have known : addrsize ∈ [2, 4, 8] := by
    rcases sized with rfl | rfl <;> simp
  rw [size_mask_to_nat (by simp), BitVec.toNat_add, size_mask_to_nat known]
  exact Nat.mod_mod_of_dvd _ (by decide)

theorem within_segment_iff (sized : addrsize = 2 ∨ addrsize = 4) (offset : BitVec 64)
    (some_byte : 0 < length) : withinLimits desc addrsize length offset = true ↔
      (∀ k, k < length → InSegment desc (byteOffset offset addrsize k)) ∨
        ExpandDown desc ∧ desc.limit = 0xffffffff ∧
          ∀ k, k < length → byteOffset offset addrsize k ≤ topOffset desc := by
  rw [within_limits_iff desc sized]
  by_cases down : ExpandDown desc
  · obtain ⟨low, high⟩ := limits_of_expand_down down
    rw [low, high]
    simp only [InSegment, down, true_and, not_true_eq_false, false_implies, and_true, true_implies]
    have top : topOffset desc ≤ 0xffffffff := by
      unfold topOffset
      split <;> decide
    by_cases widest : desc.limit = 0xffffffff
    · have number : desc.limit.toNat = 0xffffffff := by rw [widest]; rfl
      rw [number]
      simp only [widest, true_and]
      constructor
      · intro below
        exact .inr fun k inside => (below k inside).2
      · rintro (above | below)
        · have first := above 0 some_byte
          omega
        · intro k inside
          exact ⟨Nat.zero_le _, below k inside⟩
    · have number : desc.limit.toNat ≠ 0xffffffff := by
        intro equal
        exact widest (BitVec.eq_of_toNat_eq equal)
      rw [Nat.mod_eq_of_lt (by omega)]
      simp only [widest, false_and, or_false, Nat.add_one_le_iff]
  · obtain ⟨low, high⟩ := limits_of_expand_up down
    rw [low, high]
    simp [InSegment, down]

/-- Of all loaded segments and all operands, the check fails only for the expand-down segment with
the greatest limit: the offset above that limit is 0 in 32 bits. -/
theorem gla_checked_iff (loaded : LoadedSegment desc)
    (operand : SegmentOperand cpuMode seg length addrsize) (offset : BitVec 64) (prot : Prot) :
    GlaChecked cpuMode seg desc offset length addrsize prot ↔
      ¬ EmptySegmentUsed desc offset length addrsize prot := by
  have some_byte : 0 < length := by
    have known := operand.length
    simp only [List.mem_cons, List.not_mem_nil, or_false] at known
    omega
  have returned : (vieCalculateGla cpuMode seg desc offset length addrsize prot).isSome = true ↔
      Permitted desc prot ∧
        ((∀ k, k < length → InSegment desc (byteOffset offset addrsize k)) ∨
          ExpandDown desc ∧ desc.limit = 0xffffffff ∧
            ∀ k, k < length → byteOffset offset addrsize k ≤ topOffset desc) := by
    rw [calculate_gla_eq loaded operand, ← access_refused_iff,
      ← within_segment_iff operand.addrsize offset some_byte]
    split <;> simp_all
  have address (gla : BitVec 64)
      (done : vieCalculateGla cpuMode seg desc offset length addrsize prot = some gla) :
      gla.toNat = (desc.base.toNat + offset.toNat % 2 ^ (8 * addrsize)) % 2 ^ 32 := by
    rw [calculate_gla_eq loaded operand] at done
    split at done
    · cases done
      exact gla_to_nat operand.addrsize desc.base offset
    · cases done
  unfold GlaChecked EmptySegmentUsed
  rw [returned]
  constructor
  · rintro ⟨checked, -⟩ ⟨down, widest, permitted, below⟩
    obtain ⟨-, inside⟩ := checked.mp ⟨permitted, .inr ⟨down, widest, below⟩⟩
    have first := ((inside 0 some_byte).1 down).1
    have cut : byteOffset offset addrsize 0 ≤ topOffset desc := below 0 some_byte
    have top : topOffset desc ≤ 0xffffffff := by
      unfold topOffset
      split <;> decide
    have number : desc.limit.toNat = 0xffffffff := by rw [widest]; rfl
    omega
  · intro proper
    refine ⟨⟨?_, ?_⟩, address⟩
    · rintro ⟨permitted, inside | ⟨down, widest, below⟩⟩
      · exact ⟨permitted, inside⟩
      · exact absurd ⟨down, widest, permitted, below⟩ proper
    · rintro ⟨permitted, inside⟩
      exact ⟨permitted, .inl inside⟩

theorem gla_checked_iff_flat :
    GlaChecked .protectedMode .ds ⟨0, 0xffffffff, 0xc093⟩ 0xfffffffc 4 4 ⟨true, true⟩ ↔
      ¬ EmptySegmentUsed ⟨0, 0xffffffff, 0xc093⟩ 0xfffffffc 4 4 ⟨true, true⟩ :=
  gla_checked_iff ⟨by decide, by decide, by decide⟩ ⟨by decide, by decide, by decide, .inr rfl⟩ _ _

theorem empty_segment_written :
    vieCalculateGla .protectedMode .ds ⟨0, 0xffffffff, 0xc097⟩ 0 4 4 ⟨false, true⟩ = some 0 ∧
      ¬ GlaChecked .protectedMode .ds ⟨0, 0xffffffff, 0xc097⟩ 0 4 4 ⟨false, true⟩ := by
  refine ⟨by decide, ?_⟩
  rintro ⟨checked, -⟩
  obtain ⟨-, inside⟩ := checked.mp (by decide)
  have down : ExpandDown ⟨0, 0xffffffff, 0xc097⟩ := ⟨by decide, by decide⟩
  have first := ((inside 0 (by decide)).1 down).1
  contradiction

end
end VmmLinearAddress
