import Bhyve.Block.Backend

/-!
The state the BIOS hypercalls work on: guest memory, the registers of the calling vcpu,
the table of registered disks and the host's own statics. Handlers get the caller's
registers as an inth_regs record, change it, and write single registers back; what no handler reads
of it (cs, ss, esp, ebp, eip) is left out. A handler that would touch memory the host cannot reach
does not return.
-/
namespace Microbios
open ByteMemory BlockIf

def biosDataArea : Nat := 0x400
def biosVarsAddr : Nat := 0xf5000
def e820InfoBlock : Nat := 0xf5500
def biosCmdsAddr : Nat := 0xf6000

def varsConfigTbl : Nat := biosVarsAddr
def varsFlags : Nat := biosVarsAddr + 2
def varsEax : Nat := biosVarsAddr + 4
def varsEdx : Nat := biosVarsAddr + 8

def bdaCom1 : Nat := biosDataArea
def bdaMemSize : Nat := biosDataArea + 0x13
def bdaVidMode : Nat := biosDataArea + 0x49
def bdaTextColumns : Nat := biosDataArea + 0x4a
def bdaTimerCounter : Nat := biosDataArea + 0x6c
def bdaNumberOfDrives : Nat := biosDataArea + 0x75
def bdaTextRowsMinusOne : Nat := biosDataArea + 0x84

/-- Why a host function does not come back: it used an entry of mddisks that no disk was
    registered in, or it followed a guest address that is not mapped. -/
inductive Fault where
  | diskTable (index : Nat)
  | unmapped (addr : Nat)
  deriving DecidableEq

/-- What the hypervisor offers: whether paddr_guest2host finds a range, and the size of
    low memory. -/
structure Host where
  mapped : Nat → Nat → Bool
  lowmem : Nat

structure Vcpu where
  eax : BitVec 32
  ecx : BitVec 32
  edx : BitVec 32
  ebx : BitVec 32
  esi : BitVec 32
  edi : BitVec 32
  ds : BitVec 16
  es : BitVec 16

structure InthRegs where
  eflags : BitVec 16
  eax : BitVec 32
  ecx : BitVec 32
  edx : BitVec 32
  ebx : BitVec 32
  esi : BitVec 32
  edi : BitVec 32
  ds : BitVec 16
  es : BitVec 16

def blankRegs (eax ecx edx : BitVec 32) : InthRegs := ⟨0x0202, eax, ecx, edx, 0, 0, 0, 0, 0⟩

structure DiskTable where
  disks : List BlockCtxt
  fits : disks.length ≤ 32

def noDisks : DiskTable := ⟨[], by decide⟩

def DiskTable.num (t : DiskTable) : Nat := t.disks.length

def DiskTable.set (t : DiskTable) (i : Nat) (bc : BlockCtxt) : DiskTable :=
  ⟨t.disks.set i bc, by rw [List.length_set]; exact t.fits⟩

def microbiosRegisterDisk (t : DiskTable) (bc : BlockCtxt) : DiskTable :=
  if free : t.disks.length < 32 then
    ⟨t.disks ++ [bc], by rw [List.length_append, List.length_singleton]; omega⟩
  else t

structure Machine where
  mem : Mem
  vcpu : Vcpu
  disks : DiskTable
  errno : BitVec 32
  a20Mode : Bool
  e820Entries : Nat
  e820Tbl : Option Mem

def freshMachine (disks : DiskTable) : Machine :=
  { mem := fun _ => 0, vcpu := ⟨0, 0, 0, 0, 0, 0, 0, 0⟩, disks := disks, errno := 0,
    a20Mode := true, e820Entries := 0, e820Tbl := none }

variable (m : Machine)

def Machine.mddisk (i : Nat) : Except Fault BlockCtxt :=
  match m.disks.disks[i]? with
  | some bc => .ok bc
  | none => .error (.diskTable i)

def regWord (x : BitVec 32) : BitVec 32 := x &&& 0xffff
def regLobyte (x : BitVec 32) : BitVec 32 := x &&& 0xff
def regHibyte (x : BitVec 32) : BitVec 32 := (x >>> 8) &&& 0xff

theorem reg_word_to_nat (x : BitVec 32) : (regWord x).toNat = x.toNat % 0x10000 := by
  exact Nat.and_two_pow_sub_one_eq_mod x.toNat 16

theorem reg_hibyte_to_nat (x : BitVec 32) : (regHibyte x).toNat = x.toNat / 256 % 256 := by
  rw [regHibyte, BitVec.toNat_and, BitVec.toNat_ushiftRight, Nat.shiftRight_eq_div_pow]
  exact Nat.and_two_pow_sub_one_eq_mod _ 8

theorem reg_lobyte_to_nat (x : BitVec 32) : (regLobyte x).toNat = x.toNat % 256 := by
  exact Nat.and_two_pow_sub_one_eq_mod _ 8

def eflagsCf : BitVec 16 := 0x0001

def InthRegs.clearCf (regs : InthRegs) : InthRegs :=
  { regs with eflags := regs.eflags &&& ~~~eflagsCf }

def InthRegs.setCf (regs : InthRegs) : InthRegs :=
  { regs with eflags := regs.eflags ||| eflagsCf }

def InthRegs.cf (regs : InthRegs) : Bool := regs.eflags.getLsbD 0

structure Exit where
  machine : Machine
  regs : InthRegs
  err : Bool

structure Returned where
  machine : Machine
  regs : InthRegs
  result : Int

/-- The two tails of handle_int13 and handle_int15. RAX is written back on break only,
    the flags on both. -/
def Exit.leave (e : Exit) : Returned :=
  let vcpu := if e.err then e.machine.vcpu else { e.machine.vcpu with eax := e.regs.eax }
  ⟨{ e.machine with vcpu := vcpu, mem := write16 e.machine.mem varsFlags e.regs.eflags },
    e.regs, if e.err then -1 else 0⟩

def failExit (regs : InthRegs) : Exit := ⟨m, regs.setCf, true⟩

def doneExit (regs : InthRegs) : Exit := ⟨m, regs.clearCf, false⟩

@[simp] theorem set_cf_cf (regs : InthRegs) : regs.setCf.cf = true := by
  simp [InthRegs.setCf, InthRegs.cf, eflagsCf]

@[simp] theorem clear_cf_cf (regs : InthRegs) : regs.clearCf.cf = false := by
  simp [InthRegs.clearCf, InthRegs.cf, eflagsCf]

@[simp] theorem leave_regs (e : Exit) : e.leave.regs = e.regs := rfl

theorem mddisk_ok_iff (i : Nat) (bc : BlockCtxt) :
    m.mddisk i = .ok bc ↔ m.disks.disks[i]? = some bc := by
  unfold Machine.mddisk
  cases m.disks.disks[i]? <;> simp

theorem mddisk_error (i : Nat) (unregistered : m.disks.num ≤ i) :
    m.mddisk i = .error (.diskTable i) := by
  unfold Machine.mddisk
  rw [List.getElem?_eq_none unregistered]

theorem mddisk_registered (i : Nat) (registered : i < m.disks.num) : ∃ bc, m.mddisk i = .ok bc := by
  refine ⟨m.disks.disks.get ⟨i, registered⟩, ?_⟩
  rw [mddisk_ok_iff, List.getElem?_eq_getElem registered]
  rfl

end Microbios
