import Bhyve.Microbios.Transfer
import Bhyve.Microbios.Int15

/-!
The caller's registers across INT 13h and INT 15h, which the handlers are to put back.
-/
namespace Microbios
open ByteMemory BlockIf List

local instance decidableFunction (ah : BitVec 32) (ahs : List (BitVec 32)) : Decidable (ah ∈ ahs) :=
  decidable_of_iff (ahs.any fun other => decide (ah = other)) (by simp)

def eflagsZf : BitVec 16 := 0x0040

def upperHalf (x : BitVec 32) : BitVec 16 := x.extractLsb' 16 16
def lowerHalf (x : BitVec 32) : BitVec 16 := x.extractLsb' 0 16

def otherFlags (flags : BitVec 16) : BitVec 16 := flags &&& ~~~(eflagsCf ||| eflagsZf)

/-- The memory map, when it succeeds, has all of EAX for a result. -/
def ReturnsEax (vec : BitVec 16) (eax : BitVec 32) (cf : Bool) : Prop :=
  vec = 0x15 ∧ regWord eax = 0xe820 ∧ cf = false

/-- The services that are documented to return something in AL: numbers of sectors, the geometry,
    the extensions and the end of the emulation; the gate, and sizes of memory. AH is for the status
    of every service. -/
def ReturnsAl (vec : BitVec 16) (eax : BitVec 32) : Prop :=
  (vec = 0x13 ∧ regHibyte eax ∈ ([0x02, 0x03, 0x04, 0x08, 0x41, 0x4b] : List (BitVec 32))) ∨
    (vec = 0x15 ∧ (regHibyte eax ∈ ([0x88, 0x8a] : List (BitVec 32)) ∨
      regWord eax ∈ ([0x2402, 0xe801] : List (BitVec 32))))

def ReturnsDx (vec : BitVec 16) (eax : BitVec 32) : Prop :=
  (vec = 0x13 ∧ (regHibyte eax = 0x08 ∨ regHibyte eax = 0x15)) ∨
    (vec = 0x15 ∧ (regHibyte eax = 0x8a ∨ regWord eax = 0xe801))

/-- Of EAX only the documented result differs from the caller's. -/
def ResultOnly (vec : BitVec 16) (old new : BitVec 32) (cf : Bool) : Prop :=
  ReturnsEax vec old cf ∨
    upperHalf new = upperHalf old ∧ (ReturnsAl vec old ∨ regLobyte new = regLobyte old)

/-- The frame after the stub: EAX is what the handler left and differs from the caller's
    only in the result field, EDX only in a documented result, the flags in CF and ZF. -/
structure FrameKept (vec : BitVec 16) (caller : Vcpu) (flags : BitVec 16) (r : Returned)
    (frame : IretFrame) : Prop where
  eax : r.machine.vcpu.eax = r.regs.eax
  result : ResultOnly vec caller.eax r.machine.vcpu.eax r.regs.cf
  edx : r.machine.vcpu.edx = caller.edx ∨
    (ReturnsDx vec caller.eax ∧ upperHalf r.machine.vcpu.edx = upperHalf caller.edx)
  flags : otherFlags frame.flags = otherFlags flags

structure ExitKept (vec : BitVec 16) (regs : InthRegs) (e : Exit) : Prop where
  eax : e.leave.machine.vcpu.eax = e.regs.eax
  result : ResultOnly vec regs.eax e.regs.eax e.regs.cf
  edx : e.machine.vcpu.edx = regs.edx ∨
    (ReturnsDx vec regs.eax ∧ upperHalf e.machine.vcpu.edx = upperHalf regs.edx)
  flags : otherFlags e.regs.eflags = otherFlags regs.eflags

structure Entered (vec : BitVec 16) (m : Machine) (regs : InthRegs) : Prop where
  eax : m.vcpu.eax = vec ++ lowerHalf regs.eax
  edx : m.vcpu.edx = regs.edx

/-- When handle_int13 keeps the frame: an exit through eflags_err needs the caller's EAX
    to hold the vector already, and the exits that also change AH lose it; AH=08h and
    15h need a caller with no upper half in EDX. AL is set to 0, to 3 where there is no disk. -/
def Int13Keeps (host : Host) (m : Machine) (regs : InthRegs) : Prop :=
  let vector := upperHalf regs.eax = 0x13
  let narrow := upperHalf regs.edx = 0
  let refused := ∃ bc, NamesDisk m regs bc ∧ RequestRefused host m regs bc
  if isChsIo regs then diskByte regs < 0x80 ∨ refused → vector
  else if isEddIo regs then
    host.mapped (ioPacket regs) eddDrivePacketSize = true ∧
      (diskByte regs < 0x80 ∨ m.disks.num ≤ diskIndex regs ∨ refused → vector)
  else if regHibyte regs.eax = 0x08 then
    (diskByte regs < 0x80 → vector) ∧ (0x80 ≤ diskByte regs → narrow)
  else if regHibyte regs.eax = 0x48 then
    (diskByte regs < 0x80 → vector) ∧
      (0x80 ≤ diskByte regs → host.mapped (ioPacket regs) eddDriveParamsSize = true ∧
        26 ≤ (read16 m.mem (ioPacket regs)).toNat)
  else if regHibyte regs.eax = 0x15 then
    if 0x80 ≤ diskByte regs ∧ diskIndex regs < m.disks.num then regLobyte regs.eax = 0 ∧ narrow
    else regLobyte regs.eax = 0x03
  else if regHibyte regs.eax ∈ int13Plain then
    ReturnsAl 0x13 regs.eax ∨ regLobyte regs.eax = 0
  else regHibyte regs.eax = 0x41 ∨ vector

/-- When handle_int15 keeps the frame: the services that assign a 16-bit result to EAX
    need a caller with no upper half in it, and those that clear AL one that has a 0 there. The
    memory map changes EDX and its refusals AL. -/
def Int15Keeps (regs : InthRegs) : Prop :=
  if regHibyte regs.eax ∈ ([0x88, 0x8a, 0xc0] : List (BitVec 32)) then upperHalf regs.eax = 0
  else if regHibyte regs.eax = 0xe8 then
    if regLobyte regs.eax = 0x01 then upperHalf regs.eax = 0 else regLobyte regs.eax = 0
  else if regHibyte regs.eax = 0x86 then regLobyte regs.eax = 0
  else regWord regs.eax ≠ 0x2403 ∧ regWord regs.eax ≠ 0x5304

theorem upper_and_mask (x : BitVec 32) {mask : BitVec 32}
    (ones : mask.extractLsb' 16 16 = BitVec.allOnes 16) : upperHalf (x &&& mask) = upperHalf x := by
  rw [upperHalf, BitVec.extractLsb'_and, ones, BitVec.and_allOnes]
  rfl

theorem upper_or_low (x : BitVec 32) {low : BitVec 32} (zero : low.extractLsb' 16 16 = 0#16) :
    upperHalf (x ||| low) = upperHalf x := by
  rw [upperHalf, BitVec.extractLsb'_or, zero, BitVec.or_zero]
  rfl

theorem upper_mask_zero (x : BitVec 32) {mask : BitVec 32}
    (zero : mask.extractLsb' 16 16 = 0#16) : upperHalf (x &&& mask) = 0 := by
  rw [upperHalf, BitVec.extractLsb'_and, zero]
  exact BitVec.and_zero

theorem upper_merge (x y : BitVec 32) : upperHalf (x ||| (y &&& 0xffff)) = upperHalf x := by
  apply upper_or_low
  exact upper_mask_zero y (by decide)

theorem low_and_mask (x : BitVec 32) {mask : BitVec 32} (ones : 0xff &&& mask = 0xff) :
    regLobyte (x &&& mask) = regLobyte x := by
  rw [regLobyte, BitVec.and_assoc, BitVec.and_comm mask, ones]
  rfl

theorem low_mask_zero (x : BitVec 32) {mask : BitVec 32} (zero : 0xff &&& mask = 0) :
    regLobyte (x &&& mask) = 0 := by
  rw [regLobyte, BitVec.and_assoc, BitVec.and_comm mask, zero]
  exact BitVec.and_zero

theorem low_or (x y : BitVec 32) : regLobyte (x ||| y) = regLobyte x ||| regLobyte y :=
  BitVec.and_or_distrib_right

theorem halves_eq (x : BitVec 32) (hi : BitVec 16) : hi ++ lowerHalf x = x ↔ upperHalf x = hi := by
  constructor
  · intro same
    rw [← same, upperHalf]
    exact BitVec.extractLsb'_append_eq_left
  · intro same
    rw [← same]
    exact BitVec.extractLsb'_append_extractLsb'

theorem other_flags_set (regs : InthRegs) : otherFlags regs.setCf.eflags = otherFlags regs.eflags := by
  simp only [otherFlags, InthRegs.setCf]
  rw [BitVec.and_or_distrib_right]
  exact BitVec.or_zero

theorem other_flags_clear (regs : InthRegs) :
    otherFlags regs.clearCf.eflags = otherFlags regs.eflags := by
  simp only [otherFlags, InthRegs.clearCf]
  rw [BitVec.and_assoc]
  rfl

theorem hibyte_under_vector (hi : BitVec 16) (x : BitVec 32) :
    regHibyte (hi ++ lowerHalf x) = regHibyte x := by
  apply BitVec.eq_of_toNat_eq
  have low : (lowerHalf x).toNat = x.toNat % 65536 := by
    simp [lowerHalf, BitVec.extractLsb'_toNat]
  rw [reg_hibyte_to_nat, reg_hibyte_to_nat, BitVec.toNat_append, low,
    ← Nat.shiftLeft_add_eq_or_of_lt (by omega), Nat.shiftLeft_eq]
  omega

theorem hibyte_cleared (x : BitVec 32) : regHibyte (x &&& 0xffff00ff) = 0 := by
  rw [regHibyte, BitVec.ushiftRight_and_distrib, BitVec.and_assoc]
  exact BitVec.and_zero

theorem hibyte_replaced (x : BitVec 32) : regHibyte ((x &&& 0xffff00ff) ||| 0x0700) = 0x07 := by
  rw [regHibyte, BitVec.ushiftRight_or_distrib, BitVec.and_or_distrib_right]
  have cleared := hibyte_cleared x
  rw [regHibyte] at cleared
  rw [cleared]
  rfl

section
variable {vec : BitVec 16} {m m' : Machine} {regs regs' : InthRegs} {old new : BitVec 32} {cf : Bool}

theorem no_eax_of_vector : ¬ ReturnsEax 0x13 old cf := by
  rintro ⟨vec, -⟩
  revert vec
  decide

theorem ah_result (x : BitVec 32) : ResultOnly vec x (x &&& 0xffff00ff) cf :=
  Or.inr ⟨upper_and_mask x (by decide), Or.inr (low_and_mask x (by decide))⟩

theorem result_only_iff (noEax : ¬ ReturnsEax vec old cf) (upper : upperHalf new = upperHalf old) :
    ResultOnly vec old new cf ↔ ReturnsAl vec old ∨ regLobyte new = regLobyte old := by
  rw [ResultOnly, or_iff_right noEax, and_iff_right upper]

theorem fail_eax (same : m'.vcpu = m.vcpu) (entered : Entered vec m regs) :
    (failExit m' regs').leave.machine.vcpu.eax = vec ++ lowerHalf regs.eax := by
  rw [← entered.eax, ← same]
  rfl

theorem fail_kept_iff (same : m'.vcpu = m.vcpu) (entered : Entered vec m regs) :
    ExitKept vec regs (failExit m' regs) ↔ upperHalf regs.eax = vec := by
  rw [← halves_eq regs.eax vec]
  constructor
  · intro kept
    rw [← fail_eax same entered]
    exact kept.eax
  · intro present
    refine ⟨?_, Or.inr ⟨rfl, Or.inr rfl⟩, Or.inl ?_, other_flags_set regs⟩
    · rw [fail_eax same entered, present]
      rfl
    · exact (congrArg Vcpu.edx same).trans entered.edx

theorem fail_lost (entered : Entered vec m regs)
    (changed : regHibyte regs'.eax ≠ regHibyte regs.eax) :
    ¬ ExitKept vec regs (failExit m regs') := by
  intro kept
  have same := kept.eax
  rw [fail_eax rfl entered] at same
  apply changed
  rw [← hibyte_under_vector vec regs.eax, same]
  rfl

theorem break_kept_iff (flags : otherFlags regs'.eflags = otherFlags regs.eflags) :
    ExitKept vec regs ⟨m', regs', false⟩ ↔ ResultOnly vec regs.eax regs'.eax regs'.cf ∧
      (m'.vcpu.edx = regs.edx ∨
        (ReturnsDx vec regs.eax ∧ upperHalf m'.vcpu.edx = upperHalf regs.edx)) := by
  constructor
  · intro kept
    exact ⟨kept.result, kept.edx⟩
  · rintro ⟨result, edx⟩
    exact ⟨rfl, result, edx, flags⟩

theorem done_kept_iff (entered : Entered vec m regs) (sameEdx : m'.vcpu.edx = m.vcpu.edx)
    (sameFlags : regs'.eflags = regs.eflags) :
    ExitKept vec regs (doneExit m' regs') ↔ ResultOnly vec regs.eax regs'.eax false := by
  have flags : otherFlags regs'.clearCf.eflags = otherFlags regs.eflags := by
    rw [other_flags_clear, sameFlags]
  unfold doneExit
  rw [break_kept_iff flags, clear_cf_cf, and_iff_left (Or.inl (sameEdx.trans entered.edx))]
  rfl

theorem carry_kept_iff (entered : Entered vec m regs) (sameEdx : m'.vcpu.edx = m.vcpu.edx)
    (sameFlags : regs'.eflags = regs.eflags) :
    ExitKept vec regs (carryExit m' regs') ↔ ResultOnly vec regs.eax regs'.eax true := by
  have flags : otherFlags regs'.setCf.eflags = otherFlags regs.eflags := by
    rw [other_flags_set, sameFlags]
  unfold carryExit
  rw [break_kept_iff flags, set_cf_cf, and_iff_left (Or.inl (sameEdx.trans entered.edx))]
  rfl

theorem narrow_result_iff (noEax : ¬ ReturnsEax vec old cf) (narrow : upperHalf new = 0)
    (al : ReturnsAl vec old ∨ regLobyte new = regLobyte old) :
    ResultOnly vec old new cf ↔ upperHalf old = 0 := by
  rw [ResultOnly, or_iff_right noEax, narrow, and_iff_left al]
  exact eq_comm

theorem done_dx_kept_iff (sameFlags : regs'.eflags = regs.eflags)
    (upper : upperHalf regs'.eax = upperHalf regs.eax) (noEax : ¬ ReturnsEax vec regs.eax false)
    (returnsDx : ReturnsDx vec regs.eax) (narrow : upperHalf m'.vcpu.edx = 0) :
    ExitKept vec regs (doneExit m' regs') ↔
      (ReturnsAl vec regs.eax ∨ regLobyte regs'.eax = regLobyte regs.eax) ∧
        upperHalf regs.edx = 0 := by
  have flags : otherFlags regs'.clearCf.eflags = otherFlags regs.eflags := by
    rw [other_flags_clear, sameFlags]
  unfold doneExit
  rw [break_kept_iff flags, clear_cf_cf]
  refine and_congr (result_only_iff noEax upper) ⟨?_, fun callerNarrow => ?_⟩
  · rintro (same | ⟨-, same⟩)
    · rw [← same]
      exact narrow
    · rw [← same]
      exact narrow
  · exact Or.inr ⟨returnsDx, narrow.trans callerNarrow.symm⟩

end

section
variable {host : Host} {m : Machine} {regs : InthRegs} {e : Exit}

theorem refused_of_named {bc : BlockCtxt} (names : NamesDisk m regs bc) :
    (∃ bc', NamesDisk m regs bc' ∧ RequestRefused host m regs bc') ↔
      RequestRefused host m regs bc := by
  constructor
  · rintro ⟨bc', names', refused⟩
    have same : bc' = bc := Option.some.inj (names'.2.symm.trans names.2)
    rw [← same]
    exact refused
  · intro refused
    exact ⟨bc, names, refused⟩

theorem transfer_kept_iff (entered : Entered 0x13 m regs) {bc : BlockCtxt}
    (io : isChsIo regs ∨ isEddIo regs) (names : NamesDisk m regs bc)
    (packet : ¬ (isEddIo regs ∧ host.mapped (ioPacket regs) eddDrivePacketSize = false))
    (switched : int13Switch host m regs = .ok e) :
    ExitKept 0x13 regs e ↔ (RequestRefused host m regs bc → upperHalf regs.eax = 0x13) := by
  rw [io_reaches_host io names packet] at switched
  cases switched
  by_cases fails : TransferFails bc (ioIsRead regs)
      (host.mapped (ioBuffer m regs) (ioBytes bc (ioSectors m regs))) (ioSectors m regs)
      (ioLba m regs bc)
  · obtain ⟨m', failed, same⟩ := @transfer_fails host m regs _ (diskIndex regs) _ _ _ _ fails
    rw [failed, fail_kept_iff same entered]
    constructor
    · intro present _
      exact present
    · intro met
      exact met (Or.inr fails)
  · have accepted : ¬ RequestRefused host m regs bc := not_or.mpr ⟨packet, fails⟩
    have sameEdx : (movedMachine m (ioIsRead regs) (diskIndex regs) bc (ioLba m regs bc)
        (ioSectors m regs) (ioBuffer m regs)).vcpu.edx = m.vcpu.edx := by
      unfold movedMachine
      split <;> rfl
    rw [transfer_works fails]
    constructor
    · intro _ refused
      exact absurd refused accepted
    · intro _
      exact (done_kept_iff entered sameEdx (by rfl)).mpr (ah_result regs.eax)

theorem chs_kept_iff (entered : Entered 0x13 m regs) (chs : isChsIo regs)
    (switched : int13Switch host m regs = .ok e) :
    ExitKept 0x13 regs e ↔ Int13Keeps host m regs := by
  simp only [Int13Keeps, chs, ↓reduceIte]
  by_cases floppy : diskByte regs < 0x80
  · rw [switch_chs chs, int13Chs, if_pos floppy] at switched
    cases switched
    rw [fail_kept_iff rfl entered]
    constructor
    · intro present _
      exact present
    · intro met
      exact met (Or.inl floppy)
  · cases found : m.mddisk (diskIndex regs) with
    | error fault =>
      rw [switch_chs chs, int13Chs, if_neg floppy, found] at switched
      cases switched
    | ok bc =>
      have names : NamesDisk m regs bc :=
        ⟨BitVec.not_lt.mp floppy, (mddisk_ok_iff _ _ _).mp found⟩
      rw [transfer_kept_iff entered (Or.inl chs) names (fun missing => edd_not_chs missing.1 chs)
        switched, refused_of_named names]
      constructor
      · rintro met (isFloppy | refused)
        · exact absurd isFloppy floppy
        · exact met refused
      · intro met refused
        exact met (Or.inr refused)

theorem edd_kept_iff (entered : Entered 0x13 m regs) (edd : isEddIo regs)
    (switched : int13Switch host m regs = .ok e) :
    ExitKept 0x13 regs e ↔ Int13Keeps host m regs := by
  simp only [Int13Keeps, edd_not_chs edd, edd, ↓reduceIte]
  by_cases packet : host.mapped (ioPacket regs) eddDrivePacketSize = false
  · have absent : host.mapped (segOffset regs.ds regs.esi) eddDrivePacketSize = false := packet
    rw [switch_edd edd, int13Edd, if_pos absent] at switched
    cases switched
    have changed : regHibyte ((regs.eax &&& 0xffff00ff) ||| 0x0700) ≠ regHibyte regs.eax := by
      rcases edd with read | write
      · rw [hibyte_replaced, read]
        decide
      · rw [hibyte_replaced, write]
        decide
    constructor
    · intro kept
      exact absurd kept (fail_lost entered changed)
    · rintro ⟨there, -⟩
      rw [packet] at there
      cases there
  · have there : host.mapped (ioPacket regs) eddDrivePacketSize = true := by
      rw [← Bool.not_eq_false]
      exact packet
    have present : ¬ host.mapped (segOffset regs.ds regs.esi) eddDrivePacketSize = false := packet
    by_cases invalid : diskByte regs < 0x80 ∨ m.disks.num ≤ diskIndex regs
    · rw [switch_edd edd, int13Edd, if_neg present, if_pos invalid] at switched
      cases switched
      rw [fail_kept_iff rfl entered]
      constructor
      · intro vector
        exact ⟨there, fun _ => vector⟩
      · intro met
        rcases invalid with floppy | past
        · exact met.2 (Or.inl floppy)
        · exact met.2 (Or.inr (Or.inl past))
    · obtain ⟨floppy, known⟩ := not_or.mp invalid
      obtain ⟨bc, found⟩ := mddisk_registered m (diskIndex regs) (Nat.not_le.mp known)
      have names : NamesDisk m regs bc :=
        ⟨BitVec.not_lt.mp floppy, (mddisk_ok_iff _ _ _).mp found⟩
      rw [transfer_kept_iff entered (Or.inr edd) names (fun missing => packet missing.2) switched,
        refused_of_named names]
      constructor
      · intro met
        refine ⟨there, ?_⟩
        rintro (isFloppy | past | refused)
        · exact absurd isFloppy floppy
        · exact absurd past known
        · exact met refused
      · intro met refused
        exact met.2 (Or.inr (Or.inr refused))

theorem encode_dx_narrow (g : Chs) (bounds : GeometryBounds g) : upperHalf (encodeDx g) = 0 := by
  have all : ∀ h : BitVec 8, 2 ≤ h.toNat →
      upperHalf (((h.setWidth 32 - 1) <<< 8) ||| 0x01) = 0 := by decide
  exact all g.h bounds.heads_pos

theorem geometry_kept_iff (bc : BlockCtxt) {m' : Machine} {regs' : InthRegs}
    (geometry : regHibyte regs.eax = 0x08) (sameFlags : regs'.eflags = regs.eflags)
    (eax : regs'.eax = regs.eax &&& 0xffff0000) (edx : m'.vcpu.edx = encodeDx (blockifChs bc)) :
    ExitKept 0x13 regs (doneExit m' regs') ↔ upperHalf regs.edx = 0 := by
  have upper : upperHalf regs'.eax = upperHalf regs.eax := by
    rw [eax]
    exact upper_and_mask regs.eax (by decide)
  have narrow : upperHalf m'.vcpu.edx = 0 := by
    rw [edx]
    exact encode_dx_narrow _ (chs_bounds bc)
  rw [done_dx_kept_iff sameFlags upper no_eax_of_vector (Or.inl ⟨rfl, Or.inl geometry⟩) narrow]
  refine and_iff_right (Or.inl (Or.inl ⟨rfl, ?_⟩))
  rw [geometry]
  decide

theorem drive_params_kept_iff {m' : Machine} (entered : Entered 0x13 m regs)
    (extended : regHibyte regs.eax = 0x48) (sameEdx : m'.vcpu.edx = m.vcpu.edx)
    (switched : (if host.mapped (ioPacket regs) eddDriveParamsSize = false ∨
        (read16 m.mem (ioPacket regs)).toNat < 26 then
      Except.ok (failExit m { regs with eax := regs.eax &&& 0xffff00ff })
      else .ok (doneExit m' { regs with eax := regs.eax &&& 0xffff00ff }) : Except Fault Exit) = .ok e) :
    ExitKept 0x13 regs e ↔ host.mapped (ioPacket regs) eddDriveParamsSize = true ∧
      26 ≤ (read16 m.mem (ioPacket regs)).toNat := by
  by_cases unusable : host.mapped (ioPacket regs) eddDriveParamsSize = false ∨
      (read16 m.mem (ioPacket regs)).toNat < 26
  · rw [if_pos unusable] at switched
    cases switched
    have changed : regHibyte (regs.eax &&& 0xffff00ff) ≠ regHibyte regs.eax := by
      rw [hibyte_cleared, extended]
      decide
    constructor
    · intro kept
      exact absurd kept (fail_lost entered changed)
    · rintro ⟨there, long⟩
      rcases unusable with absent | short
      · rw [absent] at there
        cases there
      · exact absurd long (Nat.not_le.mpr short)
  · rw [if_neg unusable] at switched
    cases switched
    obtain ⟨present, long⟩ := not_or.mp unusable
    constructor
    · intro _
      exact ⟨(Bool.not_eq_false _).mp present, Nat.not_lt.mp long⟩
    · intro _
      exact (done_kept_iff entered sameEdx (by rfl)).mpr (ah_result regs.eax)

theorem params_kept_iff (entered : Entered 0x13 m regs) (params : isParams regs)
    (switched : int13Switch host m regs = .ok e) :
    ExitKept 0x13 regs e ↔ Int13Keeps host m regs := by
  have notChs : ¬ isChsIo regs := by
    unfold isChsIo
    rcases params with ah | ah <;> rw [ah] <;> decide
  have notEdd : ¬ isEddIo regs := by
    unfold isEddIo
    rcases params with ah | ah <;> rw [ah] <;> decide
  rw [switch_params params, int13Params] at switched
  simp only [Int13Keeps, notChs, notEdd, ↓reduceIte]
  by_cases floppy : diskByte regs < 0x80
  · rw [if_pos floppy] at switched
    cases switched
    have notHard : ¬ 0x80 ≤ diskByte regs := BitVec.not_le.mpr floppy
    rw [fail_kept_iff rfl entered]
    rcases params with ah | ah
    · rw [if_neg (by rw [ah]; decide), if_pos ah]
      exact ⟨fun vector => ⟨fun _ => vector, fun hard => absurd hard notHard⟩,
        fun met => met.1 floppy⟩
    · rw [if_pos ah]
      exact ⟨fun vector => ⟨fun _ => vector, fun hard => absurd hard notHard⟩,
        fun met => met.1 floppy⟩
  · rw [if_neg floppy] at switched
    have hard : 0x80 ≤ diskByte regs := BitVec.not_lt.mp floppy
    cases found : m.mddisk (diskIndex regs) with
    | error fault =>
      rw [found] at switched
      cases switched
    | ok bc =>
      rw [found] at switched
      dsimp only at switched
      by_cases geometry : regHibyte regs.eax = 0x08
      · rw [if_pos geometry] at switched
        cases switched
        rw [if_pos geometry]
        refine (geometry_kept_iff bc geometry ?_ ?_ ?_).trans ?_
        · rfl
        · rfl
        · rfl
        · exact ⟨fun narrow => ⟨fun isFloppy => absurd isFloppy floppy, fun _ => narrow⟩,
            fun met => met.2 hard⟩
      · have extended := params.resolve_right geometry
        rw [if_neg geometry] at switched
        rw [if_neg geometry, if_pos extended]
        refine (drive_params_kept_iff entered extended ?_ switched).trans ?_
        · rfl
        · exact ⟨fun usable => ⟨fun isFloppy => absurd isFloppy floppy, fun _ => usable⟩,
            fun met => met.2 hard⟩

theorem word_narrow (sectors : BitVec 64) : upperHalf ((sectors &&& 0xffff).setWidth 32) = 0 := by
  rw [upperHalf, BitVec.setWidth_and, BitVec.extractLsb'_and]
  exact BitVec.and_zero

theorem type_kept_iff (entered : Entered 0x13 m regs) (type : regHibyte regs.eax = 0x15)
    (switched : int13Switch host m regs = .ok e) :
    ExitKept 0x13 regs e ↔ Int13Keeps host m regs := by
  have noAl : ¬ ReturnsAl 0x13 regs.eax := by
    simp [ReturnsAl, type]
  have keeps : Int13Keeps host m regs ↔
      if 0x80 ≤ diskByte regs ∧ diskIndex regs < m.disks.num then
        regLobyte regs.eax = 0 ∧ upperHalf regs.edx = 0
      else regLobyte regs.eax = 0x03 := by
    simp [Int13Keeps, isChsIo, isEddIo, type]
  rw [keeps]
  rw [switch_type type, int13DiskType] at switched
  by_cases registered : 0x80 ≤ diskByte regs ∧ diskIndex regs < m.disks.num
  · obtain ⟨bc, found⟩ := mddisk_registered m (diskIndex regs) registered.2
    rw [if_pos registered, found] at switched
    cases switched
    rw [if_pos registered]
    refine (done_dx_kept_iff ?_ ?_ no_eax_of_vector (Or.inl ⟨rfl, Or.inr type⟩) ?_).trans ?_
    · rfl
    · exact upper_and_mask regs.eax (by decide)
    · exact word_narrow _
    · rw [or_iff_right noAl, low_mask_zero regs.eax (by decide), eq_comm]
  · rw [if_neg registered] at switched
    cases switched
    rw [if_neg registered]
    refine (done_kept_iff entered (by rfl) (by rfl)).trans ?_
    rw [result_only_iff no_eax_of_vector
      ((upper_or_low _ (by decide)).trans (upper_and_mask regs.eax (by decide))),
      or_iff_right noAl, low_or, low_mask_zero regs.eax (by decide)]
    exact eq_comm

theorem int13_kept_iff (entered : Entered 0x13 m regs)
    (switched : int13Switch host m regs = .ok e) :
    ExitKept 0x13 regs e ↔ Int13Keeps host m regs := by
  rcases int13_switch_cases host m regs with ⟨plain, exits⟩ | chs | edd | params | type |
    ⟨extensions, exits⟩ | ⟨unknown, exits⟩
  · rw [exits] at switched
    cases switched
    have keeps : Int13Keeps host m regs ↔ ReturnsAl 0x13 regs.eax ∨ regLobyte regs.eax = 0 := by
      simp only [int13Plain, mem_cons, not_mem_nil, or_false] at plain
      rcases plain with ah | ah | ah | ah | ah | ah | ah | ah <;>
        simp [Int13Keeps, isChsIo, isEddIo, ah, int13Plain]
    refine (done_kept_iff entered (by rfl) (by rfl)).trans ?_
    rw [keeps, result_only_iff no_eax_of_vector (upper_and_mask regs.eax (by decide)),
      low_mask_zero regs.eax (by decide), eq_comm]
  · exact chs_kept_iff entered chs switched
  · exact edd_kept_iff entered edd switched
  · exact params_kept_iff entered params switched
  · exact type_kept_iff entered type switched
  · rw [exits] at switched
    cases switched
    have keeps : Int13Keeps host m regs := by
      simp [Int13Keeps, isChsIo, isEddIo, extensions, int13Plain]
    refine ⟨fun _ => keeps, fun _ =>
      (done_kept_iff entered (by rfl) (by rfl)).mpr (Or.inr ⟨?_, Or.inl ?_⟩)⟩
    · exact (upper_or_low _ (by decide)).trans (upper_and_mask regs.eax (by decide))
    · exact Or.inl ⟨rfl, by rw [extensions]; decide⟩
  · rw [exits] at switched
    cases switched
    rw [fail_kept_iff rfl entered]
    simp only [mem_cons, mem_append, int13DiskFunctions, not_mem_nil, or_false,
      not_or] at unknown
    simp only [Int13Keeps, isChsIo, isEddIo, unknown, or_self, ↓reduceIte, false_or]

end

theorem reg_word_of_bytes (x hi lo word : BitVec 32) (high : regHibyte x = hi)
    (low : regLobyte x = lo) (value : word.toNat = 256 * hi.toNat + lo.toNat) : regWord x = word := by
  apply BitVec.eq_of_toNat_eq
  rw [reg_word_to_nat, value, ← high, ← low, reg_hibyte_to_nat, reg_lobyte_to_nat]
  omega

theorem bytes_of_reg_word (x : BitVec 32) :
    regHibyte x = (regWord x >>> 8) &&& 0xff ∧ regLobyte x = regWord x &&& 0xff := by
  constructor
  · rw [regHibyte, regWord, BitVec.ushiftRight_and_distrib, BitVec.and_assoc]
    rfl
  · rw [regLobyte, regWord, BitVec.and_assoc]
    rfl

section
variable {host : Host} {m : Machine} {regs : InthRegs} {e : Exit} {old : BitVec 32} {cf : Bool}

theorem no_eax_of_function (other : regHibyte old ≠ 0xe8) : ¬ ReturnsEax 0x15 old cf := by
  rintro ⟨-, map, -⟩
  apply other
  rw [(bytes_of_reg_word old).1, map]
  rfl

theorem word_ne_of_hibyte {word : BitVec 32} (other : regHibyte old ≠ (word >>> 8) &&& 0xff) :
    regWord old ≠ word := by
  rintro rfl
  exact other (bytes_of_reg_word old).1

theorem no_al_of_words (function : regHibyte old ∉ ([0x88, 0x8a] : List (BitVec 32)))
    (gate : regWord old ≠ 0x2402) (size : regWord old ≠ 0xe801) : ¬ ReturnsAl 0x15 old := by
  rintro (⟨vec, -⟩ | ⟨-, ah | word⟩)
  · revert vec
    decide
  · exact function ah
  · simp only [mem_cons, not_mem_nil, or_false] at word
    exact word.elim gate size

theorem a20_kept_iff (entered : Entered 0x15 m regs) (function : regHibyte regs.eax = 0x24) :
    ExitKept 0x15 regs (int15A20 m regs) ↔ regWord regs.eax ≠ 0x2403 := by
  have word {lo value : BitVec 32} (low : regLobyte regs.eax = lo)
      (sum : value.toNat = 256 * 0x24 + lo.toNat) : regWord regs.eax = value :=
    reg_word_of_bytes regs.eax 0x24 lo value function low sum
  have kept {m' : Machine} {new : InthRegs} (sameEdx : m'.vcpu.edx = m.vcpu.edx)
      (sameFlags : new.eflags = regs.eflags) (different : regLobyte regs.eax ≠ 0x03)
      (result : ResultOnly 0x15 regs.eax new.eax false) :
      ExitKept 0x15 regs (doneExit m' new) ↔ regWord regs.eax ≠ 0x2403 := by
    refine iff_of_true ((done_kept_iff entered sameEdx sameFlags).mpr result) fun same => ?_
    apply different
    rw [(bytes_of_reg_word regs.eax).2, same]
    rfl
  unfold int15A20
  dsimp only
  split
  · rename_i al
    exact kept rfl rfl (by rw [al]; decide) (ah_result regs.eax)
  · split
    · rename_i al
      exact kept rfl rfl (by rw [al]; decide) (ah_result regs.eax)
    · split
      · rename_i al
        refine kept rfl rfl (by rw [al]; decide) (Or.inr ⟨?_, Or.inl (Or.inr ⟨rfl, Or.inr ?_⟩)⟩)
        · cases m.a20Mode
          · exact (upper_or_low _ (by decide)).trans (upper_and_mask regs.eax (by decide))
          · exact (upper_or_low _ (by decide)).trans (upper_and_mask regs.eax (by decide))
        · rw [word al (show (0x2402 : BitVec 32).toNat = _ from rfl)]
          decide
      · split
        · rename_i al
          have query := word al (show (0x2403 : BitVec 32).toNat = _ from rfl)
          refine iff_of_false (fun kept => ?_) fun other => other query
          have result := (done_kept_iff entered (by rfl) (by rfl)).mp kept
          rw [result_only_iff (no_eax_of_function (by rw [function]; decide))
            (upper_and_mask regs.eax (by decide)), low_mask_zero regs.eax (by decide), al] at result
          revert result
          simp [ReturnsAl, function, query]
        · rename_i al
          exact kept rfl rfl al (Or.inr ⟨rfl, Or.inr rfl⟩)

theorem apm_kept_iff (entered : Entered 0x15 m regs) (function : regHibyte regs.eax = 0x53) :
    ExitKept 0x15 regs (int15Apm m regs) ↔ regWord regs.eax ≠ 0x5304 := by
  have other (low : regLobyte regs.eax ≠ 0x04) : regWord regs.eax ≠ 0x5304 := by
    intro same
    apply low
    rw [(bytes_of_reg_word regs.eax).2, same]
    rfl
  unfold int15Apm
  dsimp only
  split
  · rename_i al
    refine iff_of_true ((carry_kept_iff entered (by rfl) (by rfl)).mpr (Or.inr ⟨?_, Or.inr ?_⟩))
      (other (by rw [al]; decide))
    · rw [BitVec.or_comm]
      exact (upper_or_low _ (by decide)).trans (upper_and_mask regs.eax (by decide))
    · rw [low_or, low_and_mask regs.eax (by decide)]
      exact BitVec.zero_or
  · split
    · rename_i al
      have word := reg_word_of_bytes regs.eax 0x53 0x04 0x5304 function al rfl
      refine iff_of_false (fun kept => ?_) fun different => different word
      have result := (carry_kept_iff entered (by rfl) (by rfl)).mp kept
      rw [result_only_iff (no_eax_of_function (by rw [function]; decide))
        ((upper_or_low _ (by decide)).trans (upper_and_mask regs.eax (by decide))), low_or,
        low_mask_zero regs.eax (by decide), al] at result
      revert result
      simp [ReturnsAl, function, word, regLobyte]
    · rename_i al
      refine iff_of_true ((break_kept_iff rfl).mpr ⟨Or.inr ⟨rfl, Or.inr rfl⟩, Or.inl entered.edx⟩)
        (other al)

theorem move_block_kept (entered : Entered 0x15 m regs)
    (moved : int15MoveBlock host m regs = .ok e) : ExitKept 0x15 regs e := by
  unfold int15MoveBlock at moved
  dsimp only at moved
  split at moved
  · cases moved
  · split at moved
    · cases moved
    · split at moved
      · cases moved
      · cases moved
        exact (done_kept_iff entered (by rfl) (by rfl)).mpr (ah_result regs.eax)

theorem target_mode_kept (entered : Entered 0x15 m regs) :
    ExitKept 0x15 regs (int15TargetMode m regs) := by
  unfold int15TargetMode
  split
  · exact (done_kept_iff entered (by rfl) (by rfl)).mpr (ah_result regs.eax)
  · exact (carry_kept_iff entered (by rfl) (by rfl)).mpr (ah_result regs.eax)

theorem e801_kept_iff (word : regWord regs.eax = 0xe801) :
    ExitKept 0x15 regs (int15MemSize host m regs) ↔ upperHalf regs.eax = 0 := by
  have noEax : ¬ ReturnsEax 0x15 regs.eax false := by
    rintro ⟨-, map, -⟩
    rw [word] at map
    revert map
    decide
  have al : ReturnsAl 0x15 regs.eax := by
    simp [ReturnsAl, word]
  have edx : upperHalf ((regs.edx &&& 0xffff0000) ||| (((regs.ebx &&& 0xffff0000) |||
      (((BitVec.ofNat 32 host.lowmem - 16) * 1024 / 64) &&& 0xffff)) &&& 0xffff)) =
      upperHalf regs.edx :=
    (upper_merge _ _).trans (upper_and_mask regs.edx (by decide))
  refine (break_kept_iff (by exact other_flags_clear _)).trans ?_
  rw [clear_cf_cf]
  refine (and_iff_left (Or.inr ⟨Or.inr ⟨rfl, Or.inr word⟩, edx⟩)).trans ?_
  exact narrow_result_iff noEax (show upperHalf 0x3c00 = 0 by decide) (Or.inl al)

theorem e820_kept_iff (entered : Entered 0x15 m regs) (function : regHibyte regs.eax = 0xe8)
    (notSize : regLobyte regs.eax ≠ 0x01) (switched : int15E820 host m regs = .ok e) :
    ExitKept 0x15 regs e ↔ regLobyte regs.eax = 0 := by
  have noAl : ¬ ReturnsAl 0x15 regs.eax := by
    have notE801 : regWord regs.eax ≠ 0xe801 := by
      intro same
      apply notSize
      rw [(bytes_of_reg_word regs.eax).2, same]
      rfl
    exact no_al_of_words (by rw [function]; decide) (word_ne_of_hibyte (by rw [function]; decide))
      notE801
  unfold int15E820 at switched
  split at switched
  · cases switched
    refine (carry_kept_iff entered (by rfl) (by rfl)).trans ?_
    have noEax : ¬ ReturnsEax 0x15 regs.eax true := fun returns => nomatch returns.2.2
    rw [result_only_iff noEax (upper_and_mask regs.eax (by decide)), or_iff_right noAl,
      low_mask_zero regs.eax (by decide), eq_comm]
  · rename_i accepted
    simp only [e820Refused, not_or, not_not] at accepted
    obtain ⟨map, signature, -⟩ := accepted
    dsimp only at switched
    split at switched
    · cases switched
    · split at switched
      · cases switched
      · cases switched
        refine iff_of_false (fun kept => ?_) fun zero => absurd (map.symm.trans zero) (by decide)
        rcases kept.edx with same | ⟨returns, -⟩
        · have zero : (0 : BitVec 32) = smapSignature := same.trans signature
          revert zero
          decide
        · rcases returns with ⟨vec, -⟩ | ⟨-, ah | word⟩
          · exact absurd vec (by decide)
          · exact absurd (function.symm.trans ah) (by decide)
          · apply notSize
            rw [(bytes_of_reg_word regs.eax).2, word]
            rfl

section
variable (narrow : regHibyte regs.eax ∉ ([0x88, 0x8a, 0xc0] : List (BitVec 32)))
  (memory : regHibyte regs.eax ≠ 0xe8)
include narrow memory

theorem int15_keeps_iff (delay : regHibyte regs.eax ≠ 0x86) :
    Int15Keeps regs ↔ regWord regs.eax ≠ 0x2403 ∧ regWord regs.eax ≠ 0x5304 := by
  rw [Int15Keeps, if_neg narrow, if_neg memory, if_neg delay]

theorem rest_kept (other : regHibyte regs.eax ∉ ([0x24, 0x53, 0x86] : List (BitVec 32)))
    (kept : ExitKept 0x15 regs e) : ExitKept 0x15 regs e ↔ Int15Keeps regs := by
  simp only [mem_cons, not_mem_nil, or_false, not_or] at other
  obtain ⟨gate, power, delay⟩ := other
  rw [int15_keeps_iff narrow memory delay]
  exact iff_of_true kept ⟨word_ne_of_hibyte gate, word_ne_of_hibyte power⟩

end

theorem int15_rest_kept_iff (entered : Entered 0x15 m regs)
    (narrow : regHibyte regs.eax ∉ ([0x88, 0x8a, 0xc0] : List (BitVec 32)))
    (memory : regHibyte regs.eax ≠ 0xe8)
    (switched : int15Switch host m regs = .ok e) : ExitKept 0x15 regs e ↔ Int15Keeps regs := by
  have same : ResultOnly 0x15 regs.eax regs.eax true := Or.inr ⟨rfl, Or.inr rfl⟩
  have others := narrow
  simp only [mem_cons, not_mem_nil, or_false, not_or] at others
  obtain ⟨ah88, ah8a, ahC0⟩ := others
  unfold int15Switch at switched
  dsimp only at switched
  split at switched
  · rename_i ah
    cases switched
    refine rest_kept narrow memory (by rw [ah]; decide)
      ⟨rfl, Or.inr ⟨?_, Or.inr ?_⟩, Or.inl entered.edx, other_flags_set _⟩
    · rw [BitVec.or_comm]
      exact (upper_or_low _ (by decide)).trans (upper_and_mask regs.eax (by decide))
    · show regLobyte (0x8600 ||| (regs.eax &&& 0xffff00ff)) = regLobyte regs.eax
      rw [low_or, low_and_mask regs.eax (by decide)]
      exact BitVec.zero_or
  split at switched
  · rename_i ah
    cases switched
    rw [a20_kept_iff entered ah, int15_keeps_iff narrow memory (by rw [ah]; decide)]
    exact (and_iff_left (word_ne_of_hibyte (by rw [ah]; decide))).symm
  split at switched
  · rename_i ah
    cases switched
    exact rest_kept narrow memory (by rw [ah]; decide)
      ((carry_kept_iff entered (by rfl) (by rfl)).mpr same)
  split at switched
  · rename_i ah
    cases switched
    rw [apm_kept_iff entered ah, int15_keeps_iff narrow memory (by rw [ah]; decide)]
    exact (and_iff_right (word_ne_of_hibyte (by rw [ah]; decide))).symm
  split at switched
  · rename_i ah
    exact rest_kept narrow memory (by rw [ah]; decide)
      (move_block_kept entered switched)
  split at switched
  · rename_i ah
    cases switched
    exact rest_kept narrow memory (by rw [ah]; decide)
      (target_mode_kept entered)
  split at switched
  · rename_i ah
    cases switched
    have noAl : ¬ ReturnsAl 0x15 regs.eax :=
      no_al_of_words (by rw [ah]; decide) (word_ne_of_hibyte (by rw [ah]; decide))
        (word_ne_of_hibyte (by rw [ah]; decide))
    rw [Int15Keeps, if_neg narrow, if_neg memory, if_pos ah]
    refine (done_kept_iff entered (by rfl) (by rfl)).trans ?_
    rw [result_only_iff (no_eax_of_function memory) (upper_and_mask regs.eax (by decide)),
      or_iff_right noAl, low_mask_zero regs.eax (by decide), eq_comm]
  · rename_i gate _ power _ _ delay
    cases switched
    have other : regHibyte regs.eax ∉ ([0x24, 0x53, 0x86] : List (BitVec 32)) := by
      simp only [mem_cons, not_mem_nil, or_false, not_or]
      exact ⟨gate, power, delay⟩
    exact rest_kept narrow memory other
      ((carry_kept_iff entered (by rfl) (by rfl)).mpr same)

theorem int15_kept_iff (entered : Entered 0x15 m regs)
    (switched : int15Switch host m regs = .ok e) : ExitKept 0x15 regs e ↔ Int15Keeps regs := by
  by_cases e8 : regHibyte regs.eax = 0xe8
  · have keeps : Int15Keeps regs ↔
        if regLobyte regs.eax = 0x01 then upperHalf regs.eax = 0 else regLobyte regs.eax = 0 := by
      simp [Int15Keeps, e8]
    have selected : int15Switch host m regs =
        if regLobyte regs.eax = 0x01 then .ok (int15MemSize host m regs)
        else int15E820 host m regs := by
      simp [int15Switch, e8]
    rw [keeps]
    rw [selected] at switched
    by_cases size : regLobyte regs.eax = 0x01
    · rw [if_pos size] at switched ⊢
      cases switched
      exact e801_kept_iff (reg_word_of_bytes regs.eax 0xe8 0x01 0xe801 e8 size rfl)
    · rw [if_neg size] at switched ⊢
      exact e820_kept_iff entered e8 size switched
  by_cases narrow : regHibyte regs.eax ∈ ([0x88, 0x8a, 0xc0] : List (BitVec 32))
  · have noEax {cf : Bool} : ¬ ReturnsEax 0x15 regs.eax cf := no_eax_of_function e8
    rw [Int15Keeps, if_pos narrow]
    simp only [mem_cons, not_mem_nil, or_false] at narrow
    rcases narrow with ah | ah | ah
    · have exits : int15Switch host m regs = .ok (doneExit m { regs with eax := 8 * 1024 }) := by
        simp [int15Switch, ah]
      rw [exits] at switched
      cases switched
      refine (done_kept_iff entered (by rfl) (by rfl)).trans (narrow_result_iff noEax ?_ (.inl ?_))
      · show upperHalf (8 * 1024) = 0
        decide
      · simp [ReturnsAl, ah]
    · have exits : int15Switch host m regs = .ok (int15ExtendedSize host m regs) := by
        simp [int15Switch, ah]
      rw [exits] at switched
      cases switched
      refine (carry_kept_iff entered (by rfl) (by rfl)).trans (narrow_result_iff noEax ?_ (.inl ?_))
      · exact upper_mask_zero _ (by decide)
      · simp [ReturnsAl, ah]
    · have exits : int15Switch host m regs = .ok (int15Config m regs) := by
        simp [int15Switch, ah]
      rw [exits] at switched
      cases switched
      refine (done_kept_iff entered (by rfl) (by rfl)).trans (narrow_result_iff noEax ?_ (.inr ?_))
      · exact upper_mask_zero _ (by decide)
      · exact low_and_mask regs.eax (by decide)
  · exact int15_rest_kept_iff entered narrow e8 switched

end

inductive StubVector where
  | int13
  | int15

def StubVector.word : StubVector → BitVec 16
  | .int13 => 0x13
  | .int15 => 0x15

def StubKeeps (host : Host) (vector : StubVector) (called : Machine) : Prop :=
  match vector with
  | .int13 => Int13Keeps host (enterHandler called) (loadRegs called)
  | .int15 => Int15Keeps (loadRegs called)

section
variable (m : Machine) (stack : List (BitVec 16))

theorem load_saved_eax : (loadRegs (stubEnter m stack)).eax = m.vcpu.eax := by
  simp only [loadRegs, stubEnter]
  rw [read32_write16_other _ _ (by decide), read32_write32_other _ _ (by decide),
    read32_write32_same]

theorem load_saved_edx : (loadRegs (stubEnter m stack)).edx = m.vcpu.edx := by
  simp only [loadRegs, stubEnter]
  rw [read32_write16_other _ _ (by decide), read32_write32_same]

theorem load_saved_flags : (loadRegs (stubEnter m stack)).eflags = frameWord stack 8 := by
  simp only [loadRegs, stubEnter, read16_write16_same]

theorem stub_entered (bp vec : BitVec 16) (frame : List (BitVec 16)) :
    Entered vec (enterHandler (stubEnter m (bp :: vec :: frame)))
      (loadRegs (stubEnter m (bp :: vec :: frame))) := by
  constructor
  · rw [load_saved_eax]
    rfl
  · rfl

end

theorem dispatch_vector (vec lo : BitVec 16) :
    ((vec ++ lo : BitVec 32) >>> 16) &&& 0xffff = vec.setWidth 32 := by
  apply BitVec.eq_of_toNat_eq
  have mask : (0xffff : BitVec 32).toNat = 2 ^ 16 - 1 := rfl
  rw [BitVec.toNat_and, mask, Nat.and_two_pow_sub_one_eq_mod, BitVec.toNat_ushiftRight,
    BitVec.toNat_append, ← Nat.shiftLeft_add_eq_or_of_lt lo.isLt, Nat.shiftLeft_eq,
    Nat.shiftRight_eq_div_pow, BitVec.toNat_setWidth]
  omega

theorem leave_flags (e : Exit) : read16 e.leave.machine.mem varsFlags = e.regs.eflags :=
  read16_write16_same _ _ _

theorem leave_edx (e : Exit) : e.leave.machine.vcpu.edx = e.machine.vcpu.edx := by
  simp only [Exit.leave]
  split <;> rfl

theorem frame_kept_of_exit {vec flags : BitVec 16} {m called : Machine} {e : Exit}
    {frame : IretFrame} (eax : (loadRegs called).eax = m.vcpu.eax)
    (edx : (loadRegs called).edx = m.vcpu.edx) (saved : (loadRegs called).eflags = flags)
    (popped : frame.flags = e.regs.eflags) :
    FrameKept vec m.vcpu flags e.leave frame ↔ ExitKept vec (loadRegs called) e := by
  constructor
  · rintro ⟨keptEax, result, keptEdx, keptFlags⟩
    rw [keptEax, ← eax] at result
    rw [← eax, ← edx, leave_edx] at keptEdx
    rw [popped, ← saved] at keptFlags
    exact ⟨keptEax, result, keptEdx, keptFlags⟩
  · rintro ⟨keptEax, result, keptEdx, keptFlags⟩
    refine ⟨keptEax, ?_, ?_, ?_⟩
    · rw [keptEax, ← eax]
      exact result
    · rw [← eax, ← edx, leave_edx]
      exact keptEdx
    · rw [popped, ← saved]
      exact keptFlags

def driveZeroCaller : Machine :=
  { freshMachine noDisks with vcpu := ⟨0x0201, 0x0001, 0, 0, 0, 0, 0, 0⟩ }

def callerStack : List (BitVec 16) := [0x7c10, 0, 0x0202]

end Microbios
