import Bhyve.Vmm.Decoder

/-!
The two computations of a guest linear address. verify_gla adds the segment base, the base and
scaled index registers and the displacement, cuts the sum to the address size and compares it with
the address of the nested page fault; vie_calculate_gla, for string and stack operands, checks the
segment and cuts the offset before it adds the base. Registers and segment descriptors can always
be read, so they are functions here.
-/
namespace VmmLinearAddress
open VmmDecoder List Nat

structure SegDesc where
  base : BitVec 64
  limit : BitVec 32
  access : BitVec 32

def segDescType (access : BitVec 32) : BitVec 32 := access &&& 0x1f

def segDescPresent (access : BitVec 32) : Bool := decide (access &&& 0x80 ≠ 0)

def segDescDef32 (access : BitVec 32) : Bool := decide (access &&& 0x4000 ≠ 0)

def segDescUnusable (access : BitVec 32) : Bool := decide (access &&& 0x10000 ≠ 0)

def vieSize2mask (size : Nat) : BitVec 64 :=
  match size with
  | 1 => 0xff
  | 2 => 0xffff
  | 4 => 0xffffffff
  | 8 => 0xffffffffffffffff
  | _ => 0

def isSegment (seg : VmRegName) : Bool := decide (seg ∈ [.es, .cs, .ss, .ds, .fs, .gs])

structure Prot where
  read : Bool
  write : Bool

def accessRefused (type : BitVec 32) (prot : Prot) : Bool :=
  (prot.read && decide (type &&& 0xa = 0x8)) ||
    (prot.write && (decide (type &&& 0x8 ≠ 0) || decide (type &&& 0xa = 0)))

def lowLimit (desc : SegDesc) : BitVec 64 :=
  if segDescType desc.access &&& 0xc = 0x4 then (desc.limit + 1).setWidth 64 else 0

def highLimit (desc : SegDesc) : BitVec 64 :=
  if segDescType desc.access &&& 0xc = 0x4 then
    (if segDescDef32 desc.access then 0xffffffff else 0xffff)
  else desc.limit.setWidth 64

def withinLimits (desc : SegDesc) (addrsize : Nat) : Nat → BitVec 64 → Bool
  | 0, _ => true
  | length + 1, offset =>
      let offset := offset &&& vieSize2mask addrsize
      if offset < lowLimit desc ∨ highLimit desc < offset then false
      else withinLimits desc addrsize length (offset + 1)

def glaSize (cpuMode : CpuMode) : Nat := if cpuMode = .bits64 then 8 else 4

def addressSizes (cpuMode : CpuMode) : List Nat := if cpuMode = .bits64 then [4, 8] else [2, 4]

/-- The checks outside 64-bit mode; a failed assertion counts as a refusal. -/
def segmentAllows (desc : SegDesc) (offset : BitVec 64) (length addrsize : Nat) (prot : Prot) :
    Bool :=
  !segDescUnusable desc.access && segDescPresent desc.access &&
    decide (16 ≤ (segDescType desc.access).toNat) && !accessRefused (segDescType desc.access) prot &&
    withinLimits desc addrsize length offset

/-- In 64-bit mode all segments except %fs and %gs have a base of 0. -/
def segmentBase (cpuMode : CpuMode) (seg : VmRegName) (desc : SegDesc) : BitVec 64 :=
  if cpuMode = .bits64 ∧ seg ≠ .fs ∧ seg ≠ .gs then 0 else desc.base

def vieCalculateGla (cpuMode : CpuMode) (seg : VmRegName) (desc : SegDesc) (offset : BitVec 64)
    (length addrsize : Nat) (prot : Prot) : Option (BitVec 64) :=
  if isSegment seg = false ∨ length ∉ [1, 2, 4, 8] ∨ addrsize ∉ addressSizes cpuMode then none
  else if cpuMode ≠ .bits64 ∧ segmentAllows desc offset length addrsize prot = false then none
  else
    some ((segmentBase cpuMode seg desc + (offset &&& vieSize2mask addrsize)) &&&
      vieSize2mask (glaSize cpuMode))

section
variable (regs : VmRegName → BitVec 64) (descs : VmRegName → SegDesc)

def registerOr0 (r : VmRegName) : BitVec 64 := if r = .last then 0 else regs r

/-- RIP-relative addressing starts from the following instruction. -/
def baseValue (vie : Vie) : BitVec 64 :=
  if vie.baseRegister = .rip then regs .rip + BitVec.ofNat 64 vie.numProcessed
  else registerOr0 regs vie.baseRegister

def operandSegment (vie : Vie) : VmRegName :=
  if vie.segmentOverride then vie.segmentRegister
  else if vie.baseRegister = .rsp ∨ vie.baseRegister = .rbp then .ss
  else .ds

def verifyGla2 (cpuMode : CpuMode) (vie : Vie) : BitVec 64 :=
  (segmentBase cpuMode (operandSegment vie) (descs (operandSegment vie)) + baseValue regs vie +
      BitVec.ofNat 64 vie.scale * registerOr0 regs vie.indexRegister + vie.displacement) &&&
    vieSize2mask vie.addrsize

def effectiveOffset (vie : Vie) : BitVec 64 :=
  baseValue regs vie + BitVec.ofNat 64 vie.scale * registerOr0 regs vie.indexRegister +
    vie.displacement

def linearSum (cpuMode : CpuMode) (vie : Vie) : Nat :=
  (segmentBase cpuMode (operandSegment vie) (descs (operandSegment vie))).toNat %
      2 ^ (8 * glaSize cpuMode) +
    (effectiveOffset regs vie).toNat % 2 ^ (8 * vie.addrsize)

/-- The sum stays inside the address size, or goes round the linear address space. -/
def AddressFits (cpuMode : CpuMode) (vie : Vie) : Prop :=
  vie.addrsize = glaSize cpuMode ∨ linearSum regs descs cpuMode vie < 2 ^ (8 * vie.addrsize) ∨
    2 ^ (8 * glaSize cpuMode) ≤ linearSum regs descs cpuMode vie

end

theorem size_mask_to_nat {size : Nat} (known : size ∈ [2, 4, 8]) (x : BitVec 64) :
    (x &&& vieSize2mask size).toNat = x.toNat % 2 ^ (8 * size) := by
  simp only [mem_cons, not_mem_nil, or_false] at known
  obtain rfl | rfl | rfl := known
  · exact and_two_pow_sub_one_eq_mod _ 16
  · exact and_two_pow_sub_one_eq_mod _ 32
  · exact and_two_pow_sub_one_eq_mod _ 64

theorem calculate_gla_some {cpuMode : CpuMode} {seg : VmRegName} {desc : SegDesc}
    {offset gla : BitVec 64} {length addrsize : Nat} {prot : Prot}
    (done : vieCalculateGla cpuMode seg desc offset length addrsize prot = some gla) :
    (cpuMode = .bits64 ∧ (addrsize = 4 ∨ addrsize = 8) ∨
        cpuMode ≠ .bits64 ∧ (addrsize = 2 ∨ addrsize = 4)) ∧
      gla = (segmentBase cpuMode seg desc + (offset &&& vieSize2mask addrsize)) &&&
        vieSize2mask (glaSize cpuMode) := by
  simp only [vieCalculateGla] at done
  split at done
  · cases done
  · rename_i asserted
    split at done
    · cases done
    · refine ⟨?_, (Option.some.inj done).symm⟩
      have sized : addrsize ∈ addressSizes cpuMode := by
        by_contra other
        exact asserted (.inr (.inr other))
      unfold addressSizes at sized
      by_cases wide : cpuMode = .bits64
      · rw [if_pos wide] at sized
        simp only [mem_cons, not_mem_nil, or_false] at sized
        exact .inl ⟨wide, sized⟩
      · rw [if_neg wide] at sized
        simp only [mem_cons, not_mem_nil, or_false] at sized
        exact .inr ⟨wide, sized⟩

theorem gla2_to_nat (regs : VmRegName → BitVec 64) (descs : VmRegName → SegDesc)
    (cpuMode : CpuMode) (vie : Vie) (known : vie.addrsize ∈ [2, 4, 8]) :
    (verifyGla2 regs descs cpuMode vie).toNat =
      ((segmentBase cpuMode (operandSegment vie) (descs (operandSegment vie))).toNat +
        (effectiveOffset regs vie).toNat) % 2 ^ 64 % 2 ^ (8 * vie.addrsize) := by
  rw [verifyGla2, size_mask_to_nat known, ← BitVec.toNat_add, effectiveOffset]
  simp only [BitVec.add_assoc]

theorem cut_sum_eq_iff {narrow wide base offset : Nat} (divides : narrow ∣ wide)
    (low : base < wide) (cut : offset < narrow) :
    (base + offset) % narrow = (base + offset) % wide ↔
      narrow = wide ∨ base + offset < narrow ∨ wide ≤ base + offset := by
  have bound := le_of_dvd (zero_lt_of_lt low) divides
  by_cases same : narrow = wide
  · subst same
    exact ⟨fun _ => .inl rfl, fun _ => rfl⟩
  · by_cases inside : base + offset < narrow
    · rw [mod_eq_of_lt inside, mod_eq_of_lt (Nat.lt_of_lt_of_le inside bound)]
      exact ⟨fun _ => .inr (.inl inside), fun _ => rfl⟩
    · by_cases round : wide ≤ base + offset
      · have rest : base + offset - wide < narrow := by omega
        have wrapped : (base + offset) % wide = base + offset - wide := by
          rw [mod_eq_sub_mod round, mod_eq_of_lt (Nat.lt_of_lt_of_le rest bound)]
        have kept : (base + offset) % narrow = base + offset - wide := by
          rw [← mod_mod_of_dvd _ divides, wrapped, mod_eq_of_lt rest]
        rw [wrapped, kept]
        exact ⟨fun _ => .inr (.inr round), fun _ => rfl⟩
      · have below : base + offset < wide := Nat.lt_of_not_le round
        rw [mod_eq_of_lt below]
        have remainder : (base + offset) % narrow < narrow := mod_lt _ (zero_lt_of_lt cut)
        constructor
        · intro equal
          omega
        · intro either
          omega

theorem linear_addresses_agree_iff {regs : VmRegName → BitVec 64} {descs : VmRegName → SegDesc}
    {cpuMode : CpuMode} {vie : Vie} {length : Nat} {prot : Prot} {gla : BitVec 64}
    (done : vieCalculateGla cpuMode (operandSegment vie) (descs (operandSegment vie))
      (effectiveOffset regs vie &&& vieSize2mask vie.addrsize) length vie.addrsize prot =
        some gla) :
    verifyGla2 regs descs cpuMode vie = gla ↔ AddressFits regs descs cpuMode vie := by
  obtain ⟨sizes, rfl⟩ := calculate_gla_some done
  have known : vie.addrsize ∈ [2, 4, 8] := by
    simp only [mem_cons, not_mem_nil, or_false]
    omega
  have gla_known : glaSize cpuMode ∈ [2, 4, 8] := by
    unfold glaSize
    split <;> decide
  have divides : 2 ^ (8 * vie.addrsize) ∣ 2 ^ (8 * glaSize cpuMode) := by
    refine Nat.pow_dvd_pow 2 (Nat.mul_le_mul_left 8 ?_)
    obtain ⟨rfl, sized⟩ | ⟨narrow, sized⟩ := sizes
    · rw [glaSize, if_pos rfl]
      omega
    · rw [glaSize, if_neg narrow]
      omega
  have word : 2 ^ (8 * glaSize cpuMode) ∣ 2 ^ 64 := by
    refine Nat.pow_dvd_pow 2 ?_
    unfold glaSize
    split <;> decide
  have same : 2 ^ (8 * vie.addrsize) = 2 ^ (8 * glaSize cpuMode) ↔
      vie.addrsize = glaSize cpuMode := by
    rw [Nat.pow_right_inj (by decide)]
    omega
  rw [← BitVec.toNat_inj, gla2_to_nat regs descs cpuMode vie known, size_mask_to_nat gla_known,
    BitVec.toNat_add, size_mask_to_nat known, size_mask_to_nat known, AddressFits, linearSum,
    ← same, ← cut_sum_eq_iff divides (mod_lt _ (Nat.two_pow_pos _))
      (mod_lt _ (Nat.two_pow_pos _)), mod_mod_of_dvd _ (Nat.dvd_trans divides word),
    mod_mod_of_dvd _ word, mod_mod]
  generalize (segmentBase cpuMode (operandSegment vie) (descs (operandSegment vie))).toNat = base
  generalize (effectiveOffset regs vie).toNat = offset
  have left : (base % 2 ^ (8 * glaSize cpuMode) + offset % 2 ^ (8 * vie.addrsize)) %
      2 ^ (8 * vie.addrsize) = (base + offset) % 2 ^ (8 * vie.addrsize) := by
    rw [add_mod, mod_mod_of_dvd _ divides, mod_mod, ← add_mod]
  rw [left, mod_add_mod]

theorem linear_addresses_agree_iff_flat :
    ∃ vie, vmmDecodeInstruction .protectedMode true (vieInit [0x64, 0x8b, 0x40, 0x08]) = some vie ∧
      (verifyGla2 (fun _ => 0x1000) (fun _ => ⟨0, 0xffffffff, 0xc093⟩) .protectedMode vie = 0x1008 ↔
        AddressFits (fun _ => 0x1000) (fun _ => ⟨0, 0xffffffff, 0xc093⟩) .protectedMode vie) :=
  ⟨_, rfl, @linear_addresses_agree_iff (fun _ => 0x1000) (fun _ => ⟨0, 0xffffffff, 0xc093⟩)
    .protectedMode _ 4 ⟨true, false⟩ 0x1008 (by decide)⟩

theorem high_segment_base_lost :
    ∃ vie, vmmDecodeInstruction .bits64 true (vieInit [0x64, 0x67, 0x8b, 0x00]) = some vie ∧
      vieCalculateGla .bits64 (operandSegment vie) ⟨0x7f0012340000, 0, 0⟩
          (effectiveOffset (fun _ => 0x10) vie &&& vieSize2mask vie.addrsize) 4 vie.addrsize
          ⟨true, false⟩ = some 0x7f0012340010 ∧
      verifyGla2 (fun _ => 0x10) (fun _ => ⟨0x7f0012340000, 0, 0⟩) .bits64 vie = 0x12340010 :=
  ⟨_, rfl, by decide, by decide⟩

end VmmLinearAddress
