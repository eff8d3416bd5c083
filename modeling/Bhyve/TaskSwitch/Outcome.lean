import Bhyve.Lib.StatefulRuns
import Bhyve.TaskSwitch.Vmexit

namespace TaskSwitch
open ByteMemory VmmDecoder VmmLinearAddress StatefulRuns

def Machine.exited (m : Machine) : Machine := { m with injected := [] }

def ReadsDesc (host : Host) (m : Machine) (paging : GuestPaging) (sel : BitVec 16)
    (usd : UserDesc) : Prop :=
  ∃ iov, host.copySetup m.mem (supPaging paging) (descAddress m sel) 8 ⟨true, false⟩ = .mapped iov ∧
    read64 (gather m.mem iov) 0 = usd

def descRead (host : Host) (m : Machine) (paging : GuestPaging) (sel : BitVec 16) : Copied :=
  host.copySetup m.mem (supPaging paging) (descAddress m sel) 8 ⟨true, false⟩

def tssArea (host : Host) (m : Machine) (paging : GuestPaging) (base : BitVec 64) : Copied :=
  host.copySetup m.mem (supPaging paging) base tss32Size ⟨true, true⟩

inductive TssCheck (reason : TaskSwitchReason) (nt : SegDesc) : Nat → Prop
  | type (other : segDescType nt.access ∉ [1, 3, 9, 11]) : TssCheck reason nt idtTs
  | absent (unset : segDescPresent nt.access = false) : TssCheck reason nt idtNp
  | short (less : nt.limit < 103) : TssCheck reason nt idtTs
  | available (back : reason = .iret) (idle : tssBusy (segDescType nt.access) = false) :
      TssCheck reason nt idtTs
  | busy (away : reason ≠ .iret) (taken : tssBusy (segDescType nt.access) = true) :
      TssCheck reason nt idtGp

/-- A selector is NULL whatever its privilege level. -/
def nullSel (sel : BitVec 16) : Bool := decide (sel &&& ~~~3 = 0)

/-- What is asked of the descriptor of a segment: type, presence and privilege. -/
structure Passes (m : Machine) (kind : SegmentKind) (sel : BitVec 16) (usd : UserDesc) : Prop where
  type : typeFits kind (sdType usd) = true
  present : sdP usd ≠ 0
  privilege : privilegeFits kind (sdType usd) (selRpl (m.sel .cs)).toNat (selRpl sel).toNat
    (sdDpl usd).toNat = true

inductive SegmentCheck (host : Host) (ts : VmTaskSwitch) (m : Machine) (seg : Reg)
    (kind : SegmentKind) : Nat → Prop
  | table (ldt : kind = .ldt) (local_ : isldt (m.sel seg) = true) :
      SegmentCheck host ts m seg kind idtTs
  | beyond (outside : descTableLimitCheck m (m.sel seg) = false) :
      SegmentCheck host ts m seg kind idtTs
  | null (used : kind = .code ∨ kind = .stack) (none_ : nullSel (m.sel seg) = true) :
      SegmentCheck host ts m seg kind idtTs
  | type {usd : UserDesc} (reads : ReadsDesc host m ts.paging (m.sel seg) usd)
      (other : typeFits kind (sdType usd) = false) : SegmentCheck host ts m seg kind idtTs
  | absent {usd : UserDesc} (reads : ReadsDesc host m ts.paging (m.sel seg) usd)
      (unset : sdP usd = 0) : SegmentCheck host ts m seg kind (notPresent kind)
  | privilege {usd : UserDesc} (reads : ReadsDesc host m ts.paging (m.sel seg) usd)
      (other : ¬ Passes m kind (m.sel seg) usd) : SegmentCheck host ts m seg kind idtTs

inductive Prescribed (host : Host) (ts : VmTaskSwitch) (m : Machine) : Fault → Prop
  | beyond (sel : BitVec 16) (tss : sel = ts.tsssel ∨ sel = m.sel .tr)
      (outside : descTableLimitCheck m sel = false) :
      Prescribed host ts m (selFault (if ts.reason = .iret then idtTs else idtGp) sel ts.ext)
  | tss {usd : UserDesc} {vector : Nat} (reads : ReadsDesc host m ts.paging ts.tsssel usd)
      (fails : TssCheck ts.reason (usdToSegDesc usd) vector) :
      Prescribed host ts m (selFault vector ts.tsssel ts.ext)
  | taskRegister (never : isldt (m.sel .tr) = true ∨ nullSel (m.sel .tr) = true) :
      Prescribed host ts m (selFault idtTs (m.sel .tr) ts.ext)
  | segment {seg : Reg} {kind : SegmentKind} {vector : Nat} (is_ : segmentKind seg = some kind)
      (fails : SegmentCheck host ts m seg kind vector) :
      Prescribed host ts m (selFault vector (m.sel seg) ts.ext)
  | pdpte {a : Nat} {reg : Reg × Nat} (entry : reg ∈ pdpteRegs)
      (reserved : pdpteFits (read64 m.mem (a + reg.2)) = false) : Prescribed host ts m ⟨idtGp, true, 0⟩
  | page {exception : Fault} (paging : GuestPaging) (gla : BitVec 64) (len : Nat) (prot : Prot)
      (fails : host.copySetup m.mem paging gla len prot = .fault exception) :
      Prescribed host ts m exception
  | stack (refused : errcodeGla m ts.paging 4 = none) :
      Prescribed host ts m (selFault idtSs (m.sel .ss) true)
  | alignment {gla : BitVec 64} (allowed : errcodeGla m ts.paging 4 = some gla)
      (odd : vieAlignmentCheck ts.paging.cpl 4 (m.regs .cr0) (m.regs .rflags) gla = true) :
      Prescribed host ts m ⟨idtAc, true, 0⟩

structure OneFault (host : Host) (ts : VmTaskSwitch) (stop : Stop) (m : Machine) : Prop where
  ends : chkerr stop = .continue_
  fault : ∃ exception, m.injected = [exception] ∧ Prescribed host ts m exception

section

def descImage (usd : UserDesc) : Mem := write64 (fun _ => 0) 0 usd

def stored (host : Host) (mem : Mem) (paging : GuestPaging) (gla : BitVec 64) (image : Mem)
    (len : Nat) : Mem :=
  match host.copySetup mem paging gla len ⟨false, true⟩ with
  | .mapped iov => scatter mem iov image len
  | _ => mem

structure Tasks where
  nt : UserDesc
  ot : UserDesc
  ntIov : Nat → Nat
  otIov : Nat → Nat

variable (host : Host) (exit : VmExit) (m : Machine) (tasks : Tasks)

structure Fetched : Prop where
  accepted : tssRefused exit.taskSwitch.reason (usdToSegDesc tasks.nt) = none
  newDesc : ReadsDesc host m exit.taskSwitch.paging exit.taskSwitch.tsssel tasks.nt
  newArea : tssArea host m exit.taskSwitch.paging (usdToSegDesc tasks.nt).base = .mapped tasks.ntIov
  oldDesc : ReadsDesc host m exit.taskSwitch.paging (m.sel .tr) tasks.ot
  oldArea : tssArea host m exit.taskSwitch.paging (m.descs .tr).base = .mapped tasks.otIov

def freedMem : Mem :=
  if exit.taskSwitch.reason = .iret ∨ exit.taskSwitch.reason = .jmp then
    stored host m.mem (supPaging exit.taskSwitch.paging) (descAddress m (m.sel .tr))
      (descImage (tasks.ot &&& ~~~busyBit)) 8
  else m.mem

def savedMem : Mem :=
  scatter (freedMem host exit m tasks) tasks.otIov
    (tss32Save m exit.taskSwitch.reason ((exit.rip + exit.instLength.setWidth 64).setWidth 32)
      (gather m.mem tasks.otIov)) tss32Size

def busyDesc : UserDesc :=
  if exit.taskSwitch.reason = .iret then tasks.nt else tasks.nt ||| busyBit

def markedMem : Mem :=
  if exit.taskSwitch.reason = .iret then savedMem host exit m tasks
  else
    stored host (savedMem host exit m tasks) (supPaging exit.taskSwitch.paging)
      (descAddress m exit.taskSwitch.tsssel) (descImage (busyDesc exit tasks)) 8

def newTss : Tss := gather m.mem tasks.ntIov

def switchedMem : Mem :=
  if nests exit.taskSwitch.reason then
    scatter (markedMem host exit m tasks) tasks.ntIov
      (linkedTss exit.taskSwitch.reason (m.sel .tr) (newTss m tasks)) tss32Size
  else markedMem host exit m tasks

def freedCopy : Copied :=
  host.copySetup m.mem (supPaging exit.taskSwitch.paging) (descAddress m (m.sel .tr)) 8 ⟨false, true⟩

def markedCopy : Copied :=
  host.copySetup (savedMem host exit m tasks) (supPaging exit.taskSwitch.paging)
    (descAddress m exit.taskSwitch.tsssel) 8 ⟨false, true⟩

def copiedArea (copied : Copied) (len : Nat) (image : Mem) : List Area :=
  match copied with
  | .mapped iov => [⟨iov, len, image⟩]
  | _ => []

/-- The areas that a switch writes: for IRET and JMP the descriptor of the old task, then its state,
    but for IRET the descriptor of the new task, and where the switch nests the state of the new
    task with the back link. -/
def freedAreas : List Area :=
  if exit.taskSwitch.reason = .iret ∨ exit.taskSwitch.reason = .jmp then
    copiedArea (freedCopy host exit m) 8 (descImage (tasks.ot &&& ~~~busyBit))
  else []

def savedArea : Area where
  iov := tasks.otIov
  size := tss32Size
  image := tss32Save m exit.taskSwitch.reason ((exit.rip + exit.instLength.setWidth 64).setWidth 32)
    (gather m.mem tasks.otIov)

def markedAreas : List Area :=
  if exit.taskSwitch.reason = .iret then []
  else copiedArea (markedCopy host exit m tasks) 8 (descImage (busyDesc exit tasks))

def linkedAreas : List Area :=
  if nests exit.taskSwitch.reason then
    [⟨tasks.ntIov, tss32Size, linkedTss exit.taskSwitch.reason (m.sel .tr) (newTss m tasks)⟩]
  else []

/-- Where the descriptors of the two tasks are: as they were written, or else as they were read. -/
def newCopy : Copied :=
  if exit.taskSwitch.reason = .iret then descRead host m exit.taskSwitch.paging exit.taskSwitch.tsssel
  else markedCopy host exit m tasks

def oldCopy : Copied :=
  if exit.taskSwitch.reason = .iret ∨ exit.taskSwitch.reason = .jmp then freedCopy host exit m
  else descRead host m exit.taskSwitch.paging (m.sel .tr)

/-- Whether the old task stays busy. -/
def staysBusy : Bool :=
  !decide (exit.taskSwitch.reason = .iret ∨ exit.taskSwitch.reason = .jmp) &&
    tssBusy (ntType tasks.ot)

def TwoDescs : Prop := selStart (m.sel .tr) ≠ selStart exit.taskSwitch.tsssel

/-- The busy bits and the back link in memory. -/
structure Marks (after : Mem) : Prop where
  newBusy : ∀ iov, newCopy host exit m tasks = .mapped iov →
    tssBusy (ntType (read64 (gather after iov) 0)) = true
  oldBusy : TwoDescs exit m → ∀ iov, oldCopy host exit m = .mapped iov →
    tssBusy (ntType (read64 (gather after iov) 0)) = staysBusy exit tasks
  link : nests exit.taskSwitch.reason → read16 (gather after tasks.ntIov) tssLink = m.sel .tr

structure NewTaskState (mid : Machine) : Prop where
  tr : mid.sel .tr = exit.taskSwitch.tsssel
  trDesc : mid.descs .tr = usdToSegDesc (busyDesc exit tasks)
  cr0 : mid.regs .cr0 = m.regs .cr0 ||| cr0Ts
  eflags : mid.regs .rflags = (if nests exit.taskSwitch.reason then
    read32 (newTss m tasks) tssEflags ||| pslNt else read32 (newTss m tasks) tssEflags).setWidth 64
  eip : mid.regs .rip = (read32 (newTss m tasks) tssEip).setWidth 64
  general : ∀ field ∈ generalFields,
    mid.regs field.1 = (read32 (newTss m tasks) field.2).setWidth 64
  selectors : ∀ field ∈ selectorFields,
    mid.regs field.1 = (read16 (newTss m tasks) field.2).setWidth 64
  ldtr : mid.regs .ldtr = (read16 (newTss m tasks) tssLdt).setWidth 64
  cr3 : mid.regs .cr3 = if exit.taskSwitch.paging.pagingMode = .flat then m.regs .cr3
    else (read32 (newTss m tasks) tssCr3).setWidth 64
  mem : mid.mem = switchedMem host exit m tasks
  marks : Marks host exit m tasks mid.mem
  rest : ∀ x, (∀ iov, freedCopy host exit m = .mapped iov → ∀ i < 8, x ≠ iov i) →
    (∀ iov, markedCopy host exit m tasks = .mapped iov → ∀ i < 8, x ≠ iov i) →
    (∀ i < tss32Size, x ≠ tasks.otIov i) → (∀ i < tss32Size, x ≠ tasks.ntIov i) →
      mid.mem x = m.mem x
  descs : ∀ reg, reg ≠ .tr → mid.descs reg = m.descs reg

end

section
variable (host : Host) (ts : VmTaskSwitch) (m : Machine)

inductive FromChecked (seg : Reg) (desc : SegDesc) : Prop
  | null {kind : SegmentKind} (is_ : segmentKind seg = some kind)
      (allowed : kind = .ldt ∨ kind = .data) (null : nullSel (m.sel seg) = true)
      (same : desc = unusableDesc) : FromChecked seg desc
  | checked {kind : SegmentKind} {usd : UserDesc} (is_ : segmentKind seg = some kind)
      (global : kind = .ldt → isldt (m.sel seg) = false)
      (reads : ReadsDesc host m ts.paging (m.sel seg) usd)
      (passes : Passes m kind (m.sel seg) usd) (same : desc = usdToSegDesc usd) :
      FromChecked seg desc

def GroupSound : List Reg → Prop
  | [] => True
  | seg :: rest => ∀ desc t, validateSegDesc host ts seg m = .ok desc t →
      FromChecked host ts m seg desc ∧ GroupSound rest

def SegmentsSound : List (List Reg) → Machine → Prop
  | [], _ => True
  | group :: rest, m => GroupSound host ts m group ∧
      ∀ descs t, validateAll host ts group m = .ok descs t →
        SegmentsSound rest (m.updateSegDescs descs)

def segments : List Reg := [.ldtr, .cs, .ss, .ds, .es, .fs, .gs]

/-- The new task runs. Where there is an error code, it is on its stack. -/
structure Completed (mid after : Machine) : Prop where
  quiet : after.injected = []
  segments : ∀ seg ∈ segments,
    FromChecked host ts { mid with descs := after.descs } seg (after.descs seg)
  others : ∀ reg, reg ∉ TaskSwitch.segments → after.descs reg = mid.descs reg
  same : ts.errcodeValid = false → after.regs = mid.regs ∧ after.mem = mid.mem
  pushed : ts.errcodeValid = true → ∃ gla iov,
    errcodeGla { mid with descs := after.descs } ts.paging 4 = some gla ∧
    host.copySetup mid.mem ts.paging gla 4 ⟨false, true⟩ = .mapped iov ∧
    after.mem = scatter mid.mem iov (write32 (fun _ => 0) 0 ts.errcode) 4 ∧
    after.regs = Function.update mid.regs .rsp ((pushedEsp mid 4).setWidth 64)

structure FaultsInNew (mid : Machine) (stop : Stop) (after : Machine) : Prop where
  fault : OneFault host ts stop after
  regs : after.regs = mid.regs
  mem : after.mem = mid.mem
  others : ∀ reg, reg ∉ TaskSwitch.segments → after.descs reg = mid.descs reg

end

section
variable (host : Host) (exit : VmExit) (m : Machine)

structure FaultsInOld (stop : Stop) (after : Machine) : Prop where
  fault : OneFault host exit.taskSwitch stop after
  regs : after.regs = m.regs
  descs : after.descs = m.descs
  mem : after.mem = m.mem

def Tss32 : Prop :=
  (∀ usd, ReadsDesc host m exit.taskSwitch.paging exit.taskSwitch.tsssel usd →
    isTss16 (ntType usd) = false) ∧ segDescType (m.descs .tr).access ≠ sdtSys286bsy

/-- What is claimed of a switch: before the task register is loaded a fault changes nothing, after
    that the state is the one of the new task, and its busy bits and back link stand to the end. -/
def SwitchEnsures : Prop :=
  Ensures (prepareSwitch host exit) m.exited
    (fun found at_ => Ensures (enterState host exit.taskSwitch found.1 found.2) at_
      (fun ts mid => ∃ tasks, Fetched host exit m tasks ∧ NewTaskState host exit m tasks mid ∧
        SegmentsSound host ts segmentGroups mid ∧
        Ensures (enterSegments host ts found.1) mid
          (fun _ after => Completed host ts mid after ∧ Marks host exit m tasks after.mem)
          (fun stop after => FaultsInNew host ts mid stop after))
      (fun stop after => OneFault host exit.taskSwitch stop after))
    (fun stop after => FaultsInOld host exit m stop after)

def SwitchHolds : Prop :=
  (vmexitTaskSwitch host exit m.exited).1 = .continue_ ∧ SwitchEnsures host exit m

end

end TaskSwitch
