import Bhyve.Lib.ByteMemory
import Bhyve.Vmm.LinearAddress
import Bhyve.Vmm.PageWalk

/-!
What task_switch.c reads and writes of a vcpu: its registers, the hidden state of its segments, its
memory, as the host sees it, and the exception that is injected. vm_copy_setup, which walks the page
tables, and paddr_guest2host are parameters. Registers and descriptors can always be read and set.
-/
namespace TaskSwitch
open ByteMemory VmmDecoder VmmLinearAddress

abbrev GuestPaging := VmmPageWalk.GuestPaging
abbrev PagingMode := VmmPageWalk.PagingMode

inductive Reg where
  | rax | rcx | rdx | rbx | rsp | rbp | rsi | rdi
  | rip | rflags | cr0 | cr3
  | es | cs | ss | ds | fs | gs
  | ldtr | tr | gdtr
  | pdpte0 | pdpte1 | pdpte2 | pdpte3
  deriving DecidableEq

structure Fault where
  vector : Nat
  errcodeValid : Bool
  errcode : BitVec 32
  deriving DecidableEq

def idtTs : Nat := 10
def idtNp : Nat := 11
def idtSs : Nat := 12
def idtGp : Nat := 13
def idtAc : Nat := 17

structure Machine where
  regs : Reg → BitVec 64
  descs : Reg → SegDesc
  mem : Mem
  injected : List Fault
  intinfo : BitVec 64

def Machine.setReg (m : Machine) (reg : Reg) (val : BitVec 64) : Machine :=
  { m with regs := Function.update m.regs reg val }

def Machine.setDesc (m : Machine) (reg : Reg) (desc : SegDesc) : Machine :=
  { m with descs := Function.update m.descs reg desc }

/-- What vm_copy_setup returns: EFAULT, the flag with the fault it has injected, or where each byte
    of the area is. -/
inductive Copied where
  | efault
  | fault (exception : Fault)
  | mapped (iov : Nat → Nat)

structure Prot where
  read : Bool
  write : Bool

/-- vm_copy_setup translates page by page, so that the bytes of an area that is no longer than a page
    are at different places. -/
structure Host where
  copySetup : Mem → GuestPaging → BitVec 64 → Nat → Prot → Copied
  guest2host : BitVec 64 → Nat → Option Nat
  distinct : ∀ {mem : Mem} {paging : GuestPaging} {gla : BitVec 64} {len : Nat} {prot : Prot}
    {iov : Nat → Nat}, copySetup mem paging gla len prot = .mapped iov → len ≤ 4096 →
      Distinct iov len

/-- Why a function returns before its end: an assertion fails, a null pointer is used, an error of 1
    or EFAULT is returned, the fault flag is set, the switch is done without, or it is given up. -/
inductive Stop where
  | assertion
  | crash
  | one
  | efault
  | fault
  | done
  | abort
  deriving DecidableEq

abbrev Act := EStateM Stop Machine

def check (holds : Bool) : Act Unit := if holds then pure () else throw .assertion

def onlyIf (c : Prop) [Decidable c] (act : Act Unit) : Act Unit := if c then act else pure ()

/-- An exception is not injected while another one is pending. -/
def vmInjectFault (exception : Fault) : Act Unit := do
  check (← get).injected.isEmpty
  modify fun m => { m with injected := [exception] }

def vmCopySetup (host : Host) (paging : GuestPaging) (gla : BitVec 64) (len : Nat) (prot : Prot) :
    Act (Nat → Nat) := do
  match host.copySetup (← get).mem paging gla len prot with
  | .efault => throw .efault
  | .fault exception =>
      vmInjectFault exception
      throw .fault
  | .mapped iov => pure iov

def vmCopyout (image : Mem) (iov : Nat → Nat) (len : Nat) : Act Unit :=
  modify fun m => { m with mem := scatter m.mem iov image len }

/-- A segment descriptor as the eight bytes it is in the table. -/
abbrev UserDesc := BitVec 64

def sdType (usd : UserDesc) : BitVec 5 := usd.extractLsb' 40 5
def sdDpl (usd : UserDesc) : BitVec 2 := usd.extractLsb' 45 2
def sdP (usd : UserDesc) : BitVec 1 := usd.extractLsb' 47 1
def sdXx (usd : UserDesc) : BitVec 2 := usd.extractLsb' 52 2
def sdDef32 (usd : UserDesc) : BitVec 1 := usd.extractLsb' 54 1
def sdGran (usd : UserDesc) : BitVec 1 := usd.extractLsb' 55 1
def usdGetbase (usd : UserDesc) : BitVec 32 := usd.extractLsb' 56 8 ++ usd.extractLsb' 16 24
def usdGetlimit (usd : UserDesc) : BitVec 32 :=
  (usd.extractLsb' 48 4 ++ usd.extractLsb' 0 16).setWidth 32

def busyBit : UserDesc := BitVec.twoPow 64 41

def usdToSegDesc (usd : UserDesc) : SegDesc where
  base := (usdGetbase usd).setWidth 64
  limit := if sdGran usd = 1 then usdGetlimit usd <<< 12 ||| 0xfff else usdGetlimit usd
  access := (sdType usd).setWidth 32 ||| (sdDpl usd).setWidth 32 <<< 5 |||
    (sdP usd).setWidth 32 <<< 7 ||| (sdXx usd).setWidth 32 <<< 12 |||
    (sdDef32 usd).setWidth 32 <<< 14 ||| (sdGran usd).setWidth 32 <<< 15

def sdtSys286tss : BitVec 32 := 1
def sdtSysldt : BitVec 5 := 2
def sdtSys286bsy : BitVec 32 := 3
def sdtSys386tss : BitVec 32 := 9
def sdtSys386bsy : BitVec 32 := 11

def tssBusy (type : BitVec 32) : Bool := decide (type &&& 2 ≠ 0)

def isldt (sel : BitVec 16) : Bool := sel.getLsbD 2
def idxsel (sel : BitVec 16) : BitVec 16 := sel >>> 3
def selStart (sel : BitVec 16) : BitVec 16 := sel &&& ~~~7
def selLimit (sel : BitVec 16) : BitVec 16 := sel ||| 7
def selRpl (sel : BitVec 16) : BitVec 16 := sel &&& 3

def selErrcode (sel : BitVec 16) (ext : Bool) : BitVec 16 :=
  sel &&& ~~~3 ||| (if ext then 1 else 0)

def selFault (vector : Nat) (sel : BitVec 16) (ext : Bool) : Fault :=
  ⟨vector, true, (selErrcode sel ext).setWidth 32⟩

def selException (vector : Nat) (sel : BitVec 16) (ext : Bool) : Act Unit :=
  vmInjectFault (selFault vector sel ext)

def Machine.sel (m : Machine) (reg : Reg) : BitVec 16 := (m.regs reg).setWidth 16

def tableReg (sel : BitVec 16) : Reg := if isldt sel then .ldtr else .gdtr

def descTableLimitCheck (m : Machine) (sel : BitVec 16) : Bool :=
  let table := m.descs (tableReg sel)
  if isldt sel && (segDescUnusable table.access || !segDescPresent table.access) then false
  else decide ((selLimit sel).setWidth 32 ≤ table.limit)

def descAddress (m : Machine) (sel : BitVec 16) : BitVec 64 :=
  (m.descs (tableReg sel)).base + (selStart sel).setWidth 64

def descTableSetup (host : Host) (paging : GuestPaging) (sel : BitVec 16) (prot : Prot) :
    Act (Nat → Nat) := do
  let m ← get
  check (decide ((selLimit sel).setWidth 32 ≤ (m.descs (tableReg sel)).limit))
  vmCopySetup host paging (descAddress m sel) 8 prot

def descTableRead (host : Host) (paging : GuestPaging) (sel : BitVec 16) : Act UserDesc := do
  let iov ← descTableSetup host paging sel ⟨true, false⟩
  pure (read64 (gather (← get).mem iov) 0)

def descTableWrite (host : Host) (paging : GuestPaging) (sel : BitVec 16) (desc : UserDesc) :
    Act Unit := do
  let iov ← descTableSetup host paging sel ⟨false, true⟩
  vmCopyout (write64 (fun _ => 0) 0 desc) iov 8

end TaskSwitch
