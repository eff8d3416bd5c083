import Bhyve.TaskSwitch.Machine

/-!
The emulation of a hardware task switch, vmexit_task_switch of task_switch.c, in the steps it takes:
the checks of the new task state segment, the old one, the writes before the task register is
loaded, and the new task. A task state segment is the image of its bytes, which the fields are read
from and written to.
-/
namespace TaskSwitch
open ByteMemory VmmDecoder VmmLinearAddress

inductive TaskSwitchReason where
  | call
  | iret
  | jmp
  | idtGate
  deriving DecidableEq

structure VmTaskSwitch where
  tsssel : BitVec 16
  ext : Bool
  errcode : BitVec 32
  errcodeValid : Bool
  reason : TaskSwitchReason
  paging : GuestPaging

structure VmExit where
  rip : BitVec 64
  instLength : BitVec 32
  taskSwitch : VmTaskSwitch

def pslNt : BitVec 32 := 0x4000
def pslAc : BitVec 64 := 0x40000
def cr0Ts : BitVec 64 := 0x8
def cr0Am : BitVec 64 := 0x40000

abbrev Tss := Mem

def tssLink : Nat := 0
def tssCr3 : Nat := 28
def tssEip : Nat := 32
def tssEflags : Nat := 36
def tssLdt : Nat := 96
def tss32Size : Nat := 104

def generalFields : List (Reg × Nat) :=
  [(.rax, 40), (.rcx, 44), (.rdx, 48), (.rbx, 52), (.rsp, 56), (.rbp, 60), (.rsi, 64), (.rdi, 68)]

def selectorFields : List (Reg × Nat) :=
  [(.es, 72), (.cs, 76), (.ss, 80), (.ds, 84), (.fs, 88), (.gs, 92)]

def supPaging (paging : GuestPaging) : GuestPaging := { paging with cpl := 0 }

variable (host : Host) (ts : VmTaskSwitch)

def readTssDescriptor (sel : BitVec 16) : Act UserDesc := do
  check (!isldt sel)
  check (decide (idxsel sel ≠ 0))
  if descTableLimitCheck (← get) sel then descTableRead host (supPaging ts.paging) sel
  else
    selException (if ts.reason = .iret then idtTs else idtGp) sel ts.ext
    throw .one

def codeDesc (type : BitVec 5) : Bool := decide (type &&& 0x18 = 0x18)
def stackDesc (type : BitVec 5) : Bool := decide (type &&& 0x1a = 0x12)
def dataDesc (type : BitVec 5) : Bool := decide (type &&& 0x18 = 0x10 ∨ type &&& 0x1a = 0x1a)
def ldtDesc (type : BitVec 5) : Bool := decide (type = sdtSysldt)

inductive SegmentKind where
  | ldt
  | code
  | stack
  | data
  deriving DecidableEq

def segmentKind : Reg → Option SegmentKind
  | .ldtr => some .ldt
  | .cs => some .code
  | .ss => some .stack
  | .ds | .es | .fs | .gs => some .data
  | _ => none

def typeFits (kind : SegmentKind) (type : BitVec 5) : Bool :=
  match kind with
  | .ldt => ldtDesc type
  | .code => codeDesc type
  | .stack => stackDesc type
  | .data => dataDesc type

def notPresent : SegmentKind → Nat
  | .ldt => idtTs
  | .stack => idtSs
  | _ => idtNp

def conforming (type : BitVec 5) : Bool := decide (type &&& 4 ≠ 0)

def privilegeFits (kind : SegmentKind) (type : BitVec 5) (cpl rpl dpl : Nat) : Bool :=
  match kind with
  | .ldt => true
  | .stack => decide (rpl = cpl ∧ dpl = cpl)
  | .code => if conforming type then decide (dpl ≤ cpl) else decide (cpl = dpl)
  | .data => codeDesc type && conforming type || decide (rpl ≤ dpl ∧ cpl ≤ dpl)

def refuse {α : Type} (vector : Nat) (sel : BitVec 16) : Act α := do
  selException vector sel ts.ext
  throw .one

def unusableDesc : SegDesc := ⟨0, 0, 0x10000⟩

def validateDesc (kind : SegmentKind) (sel : BitVec 16) (usd : UserDesc) : Act SegDesc := do
  let cs := (← get).sel .cs
  if typeFits kind (sdType usd) = false then refuse ts idtTs sel
  else if sdP usd = 0 then refuse ts (notPresent kind) sel
  else if privilegeFits kind (sdType usd) (selRpl cs).toNat (selRpl sel).toNat
      (sdDpl usd).toNat = false then refuse ts idtTs sel
  else pure (usdToSegDesc usd)

def validateSegDesc (segment : Reg) : Act SegDesc := do
  match segmentKind segment with
  | none => throw .assertion
  | some kind =>
      let m ← get
      let sel := m.sel segment
      if kind = .ldt ∧ isldt sel then refuse ts idtTs sel
      else if descTableLimitCheck m sel = false then refuse ts idtTs sel
      else if idxsel sel = 0 then
        if kind = .code ∨ kind = .stack then refuse ts idtTs sel else pure unusableDesc
      else
        let usd ← descTableRead host (supPaging ts.paging) sel
        validateDesc ts kind sel usd

variable (m : Machine) (reason : TaskSwitchReason)

def tss32Save (eip : BitVec 32) (tss : Tss) : Tss :=
  let tss := generalFields.foldl
    (fun tss field => write32 tss field.2 ((m.regs field.1).setWidth 32)) tss
  let tss := selectorFields.foldl (fun tss field => write16 tss field.2 (m.sel field.1)) tss
  let eflags := (m.regs .rflags).setWidth 32
  let tss := write32 tss tssEflags (if reason = .iret then eflags &&& ~~~pslNt else eflags)
  write32 tss tssEip eip

def nests (reason : TaskSwitchReason) : Bool := decide (reason ≠ .iret ∧ reason ≠ .jmp)

def linkedTss (otSel : BitVec 16) (tss : Tss) : Tss :=
  if nests reason then write16 tss tssLink otSel else tss

def restoredEflags (tss : Tss) : BitVec 32 :=
  let eflags := read32 tss tssEflags
  if nests reason then eflags ||| pslNt else eflags

/-- Bits 2:1 and 8:5 of an entry, and those above 36 bits of address, are reserved. -/
def pdpteReserved : BitVec 64 := ~~~0xfffffffff ||| 0x1e6

def pdpteFits (pdpte : BitVec 64) : Bool :=
  !pdpte.getLsbD 0 || decide (pdpte &&& pdpteReserved = 0)

def pdpteRegs : List (Reg × Nat) := [(.pdpte0, 0), (.pdpte1, 8), (.pdpte2, 16), (.pdpte3, 24)]

def Machine.loadPdptes (a : Nat) : Machine :=
  pdpteRegs.foldl (fun m reg => m.setReg reg.1 (read64 m.mem (a + reg.2))) m

def restorePdptes (cr3 : BitVec 32) : Act Unit := do
  match host.guest2host ((cr3 &&& ~~~0x1f).setWidth 64) 32 with
  | none => throw .crash
  | some pdpte =>
      let m ← get
      if pdpteRegs.all fun reg => pdpteFits (read64 m.mem (pdpte + reg.2)) then
        modify fun m => m.loadPdptes pdpte
      else
        vmInjectFault ⟨idtGp, true, 0⟩
        throw .one

def restorePaging (tss : Tss) : Act VmTaskSwitch := do
  if ts.paging.pagingMode = .flat then pure ts
  else
    onlyIf (ts.paging.pagingMode = .pae) (restorePdptes host (read32 tss tssCr3))
    modify fun m => m.setReg .cr3 ((read32 tss tssCr3).setWidth 64)
    pure { ts with paging := { ts.paging with cr3 := (read32 tss tssCr3).setWidth 64 } }

def Machine.loadRegs (eflags : BitVec 32) (tss : Tss) : Machine :=
  let m := (m.setReg .rflags (eflags.setWidth 64)).setReg .rip ((read32 tss tssEip).setWidth 64)
  let m := generalFields.foldl
    (fun m field => m.setReg field.1 ((read32 tss field.2).setWidth 64)) m
  selectorFields.foldl (fun m field => m.setReg field.1 ((read16 tss field.2).setWidth 64)) m

def validateAll (host : Host) (ts : VmTaskSwitch) : List Reg → Act (List (Reg × SegDesc))
  | [] => pure []
  | segment :: rest => do
      let desc ← validateSegDesc host ts segment
      let descs ← validateAll host ts rest
      pure ((segment, desc) :: descs)

def Machine.updateSegDescs (descs : List (Reg × SegDesc)) : Machine :=
  descs.foldl (fun m desc => m.setDesc desc.1 desc.2) m

/-- CS and SS are both valid before either of them is set. -/
def segmentGroups : List (List Reg) := [[.ldtr], [.cs, .ss], [.ds], [.es], [.fs], [.gs]]

def restoreSegments (host : Host) (ts : VmTaskSwitch) : List (List Reg) → Act Unit
  | [] => pure ()
  | group :: rest => do
      let descs ← validateAll host ts group
      modify fun m => m.updateSegDescs descs
      restoreSegments host ts rest

def restoreState (otSel : BitVec 16) (tss : Tss) (iov : Nat → Nat) : Act VmTaskSwitch := do
  let eflags := restoredEflags ts.reason tss
  let tss := linkedTss ts.reason otSel tss
  modify fun m => m.setReg .ldtr ((read16 tss tssLdt).setWidth 64)
  let ts ← restorePaging host ts tss
  modify fun m => m.loadRegs eflags tss
  onlyIf (nests ts.reason) (vmCopyout tss iov tss32Size)
  pure { ts with paging := { ts.paging with cpl := (selRpl (read16 tss 76)).toNat } }

def vieAlignmentCheck (cpl size : Nat) (cr0 rflags gla : BitVec 64) : Bool :=
  decide (cpl = 3 ∧ cr0 &&& cr0Am ≠ 0 ∧ rflags &&& pslAc ≠ 0 ∧ gla &&& BitVec.ofNat 64 (size - 1) ≠ 0)

def errcodeBytes (taskType : BitVec 32) : Nat :=
  if taskType = sdtSys386bsy ∨ taskType = sdtSys386tss then 4 else 2

def pushedEsp (bytes : Nat) : BitVec 32 :=
  (m.regs .rsp).setWidth 32 - BitVec.ofNat 32 bytes

def errcodeGla (paging : GuestPaging) (bytes : Nat) : Option (BitVec 64) :=
  let desc := m.descs .ss
  let stacksize := if segDescDef32 desc.access then 4 else 2
  vieCalculateGla paging.cpuMode .ss desc ((pushedEsp m bytes).setWidth 64) bytes stacksize
    ⟨false, true⟩

def pushErrcode (paging : GuestPaging) (taskType errcode : BitVec 32) : Act Unit := do
  let m ← get
  let bytes := errcodeBytes taskType
  match errcodeGla m paging bytes with
  | none =>
      selException idtSs (m.sel .ss) true
      throw .fault
  | some gla =>
      if vieAlignmentCheck paging.cpl bytes (m.regs .cr0) (m.regs .rflags) gla then
        vmInjectFault ⟨idtAc, true, 0⟩
        throw .fault
      else
        let iov ← vmCopySetup host paging gla bytes ⟨false, true⟩
        vmCopyout (write32 (fun _ => 0) 0 errcode) iov bytes
        modify fun m => m.setReg .rsp ((pushedEsp m bytes).setWidth 64)

def isTss32 (type : BitVec 32) : Bool := decide (type = sdtSys386bsy ∨ type = sdtSys386tss)
def isTss16 (type : BitVec 32) : Bool := decide (type = sdtSys286bsy ∨ type = sdtSys286tss)

def minlimit (type : BitVec 32) : Nat := if isTss32 type then 104 - 1 else 44 - 1

def tssRefused (nt : SegDesc) : Option Nat :=
  let type := segDescType nt.access
  if !isTss32 type && !isTss16 type then some idtTs
  else if !segDescPresent nt.access then some idtNp
  else if nt.limit.toNat < minlimit type then some idtTs
  else if reason = .iret && !tssBusy type then some idtTs
  else if reason ≠ .iret && tssBusy type then some idtGp
  else none

def finish {α : Type} (vector : Nat) (sel : BitVec 16) (ext : Bool) : Act α := do
  selException vector sel ext
  throw .done

structure NewTask where
  type : BitVec 32
  desc : UserDesc
  iov : Nat → Nat
  tss : Tss

def ntType (desc : UserDesc) : BitVec 32 := segDescType (usdToSegDesc desc).access

def fetchNew (ts : VmTaskSwitch) : Act NewTask := do
  let desc ← readTssDescriptor host ts ts.tsssel
  match tssRefused ts.reason (usdToSegDesc desc) with
  | some vector => finish vector ts.tsssel ts.ext
  | none =>
      let iov ← vmCopySetup host (supPaging ts.paging) (usdToSegDesc desc).base
        (minlimit (ntType desc) + 1) ⟨true, true⟩
      pure ⟨ntType desc, desc, iov, gather (← get).mem iov⟩

structure OldTask where
  sel : BitVec 16
  desc : UserDesc
  iov : Nat → Nat
  tss : Tss

def busyTss (access : BitVec 32) : Bool :=
  !segDescUnusable access && segDescPresent access &&
    decide (segDescType access = sdtSys386bsy ∨ segDescType access = sdtSys286bsy)

def fetchOld (size : Nat) : Act OldTask := do
  let m ← get
  let sel := m.sel .tr
  if isldt sel ∨ idxsel sel = 0 then finish idtTs sel ts.ext
  else
    let tr := m.descs .tr
    check (busyTss tr.access)
    let desc ← readTssDescriptor host ts sel
    let iov ← vmCopySetup host (supPaging ts.paging) tr.base size ⟨true, true⟩
    pure ⟨sel, desc, iov, gather (← get).mem iov⟩

/-- The old task is left: its descriptor is made available where the switch does not nest, and its
    state is saved. The descriptor of the new task is made busy. -/
def leaveOld (exit : VmExit) (new : NewTask) (old : OldTask) : Act UserDesc := do
  let ts := exit.taskSwitch
  let eip := (exit.rip + exit.instLength.setWidth 64).setWidth 32
  onlyIf (ts.reason = .iret ∨ ts.reason = .jmp)
    (descTableWrite host (supPaging ts.paging) old.sel (old.desc &&& ~~~busyBit))
  onlyIf (isTss16 new.type) (throw .abort)
  vmCopyout (tss32Save (← get) ts.reason eip old.tss) old.iov tss32Size
  if ts.reason = .iret then pure new.desc
  else
    descTableWrite host (supPaging ts.paging) ts.tsssel (new.desc ||| busyBit)
    pure (new.desc ||| busyBit)

def prepareSwitch (exit : VmExit) : Act (NewTask × OldTask) := do
  check (decide (exit.taskSwitch.paging.cpuMode = .protectedMode))
  let new ← fetchNew host exit.taskSwitch
  let old ← fetchOld host exit.taskSwitch (minlimit new.type + 1)
  let desc ← leaveOld host exit new old
  pure ({ new with desc := desc }, old)

def Machine.loadTask (ntSel : BitVec 16) (new : NewTask) : Machine :=
  let m := (m.setReg .tr (ntSel.setWidth 64)).setDesc .tr (usdToSegDesc new.desc)
  let m := m.setReg .cr0 (m.regs .cr0 ||| cr0Ts)
  m.setReg .rip ((read32 new.tss tssEip).setWidth 64)

def pushChecked (taskType : BitVec 32) : Act Unit := do
  check ts.ext
  check (decide (ts.reason = .idtGate))
  pushErrcode host ts.paging taskType ts.errcode

def enterState (new : NewTask) (old : OldTask) : Act VmTaskSwitch := do
  modify fun m => m.loadTask ts.tsssel new
  restoreState host ts old.sel new.tss new.iov

def enterSegments (new : NewTask) : Act Unit := do
  restoreSegments host ts segmentGroups
  onlyIf ts.errcodeValid (pushChecked host ts new.type)
  onlyIf (ts.reason = .idtGate) (modify fun m => { m with intinfo := 0 })

def taskSwitch (host : Host) (exit : VmExit) : Act Unit := do
  let tasks ← prepareSwitch host exit
  let ts ← enterState host exit.taskSwitch tasks.1 tasks.2
  enterSegments host ts tasks.1

inductive Vmexit where
  | continue_
  | abort
  | assertion
  | crash
  deriving DecidableEq

/-- CHKERR, after each helper: an error is to be EFAULT. -/
def chkerr : Stop → Vmexit
  | .assertion => .assertion
  | .crash => .crash
  | .one => .assertion
  | .efault => .abort
  | .fault => .continue_
  | .done => .continue_
  | .abort => .abort

def vmexitTaskSwitch (exit : VmExit) (m : Machine) : Vmexit × Machine :=
  match taskSwitch host exit m with
  | .ok _ m => (.continue_, m)
  | .error stop m => (chkerr stop, m)

end TaskSwitch
