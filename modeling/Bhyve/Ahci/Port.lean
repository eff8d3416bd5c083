import Bhyve.Ahci.Commands

/-!
The loop that issues the commands of a port, the end of a request, and the writes of the guest to
the registers. Each of them runs with the mutex of the controller held.
-/
namespace Ahci
open BitMasks

attribute [local instance] slots_nonzero

def unissued (p : AhciPort) : BitVec 32 := p.ci &&& ~~~p.pending

def AhciPort.atRest (p : AhciPort) : Bool :=
  decide (unissued p = 0) || decide (p.tfd &&& (ataSBusy ||| ataSDrq) ≠ 0) || p.waitforclear

def AhciPort.handles (p : AhciPort) : Bool := (unissued p).getLsbD p.ccs

def setCcs (p : AhciPort) : AhciPort :=
  { p with cmd := (p.cmd &&& ~~~cmdCcsMask) ||| BitVec.ofNat 32 p.ccs <<< cmdCcsShift }

def issueSlot (g : Guest) (disk : Disk) (v : PortView) : Except Fault PortView :=
  ahciHandleSlot g disk v.port.ccs ⟨v.hba, setCcs v.port⟩

def nextCcs (v : PortView) : PortView := ⟨v.hba, { v.port with ccs := v.port.ccs + 1 }⟩

inductive LoopState where
  | running (v : PortView)
  | ended (result : Except Fault PortView)

def portIteration (g : Guest) (disk : Disk) (v : PortView) : LoopState :=
  if v.port.atRest then .ended (.ok v)
  else if v.port.handles then
    match issueSlot g disk v with
    | .ok v => .running (nextCcs v)
    | .error fault => .ended (.error fault)
  else .running (nextCcs v)

/-- The loop after a number of iterations. Each finds its own contents in the guest's memory. -/
def portLoop (disk : Disk) : Nat → (Nat → Guest) → PortView → LoopState
  | 0, _, v => .running v
  | n + 1, mem, v =>
      match portIteration (mem 0) disk v with
      | .running v => portLoop disk n (fun i => mem (i + 1)) v
      | .ended result => .ended result

def ahciHandlePort (disk : Disk) (n : Nat) (mem : Nat → Guest) (v : PortView) : LoopState :=
  if v.port.cmd &&& cmdSt = 0 then .ended (.ok v) else portLoop disk n mem v

/-- What surrounds an operation: the memory of the guest when it begins and at each iteration of
    the loop, a number of iterations, and the requests that the block device can still cancel. -/
structure Env where
  disk : Disk
  guest : Guest
  mem : Nat → Guest
  fuel : Nat
  cancels : Nat → Bool

variable (env : Env)

def goOn (v : PortView) : Except Fault PortView :=
  match ahciHandlePort env.disk env.fuel env.mem v with
  | .ended result => result
  | .running _ => .error .hangs

def releaseIoreq (p : AhciPort) (k : Nat) : AhciPort :=
  { p with
    iobhd := p.iobhd.erase k
    iofhd := p.iofhd ++ [k]
    queued := p.queued.erase k }

def stopIoreq (p : AhciPort) (k : Nat) : AhciPort :=
  if env.cancels k then
    let slot := (p.ioreq k).slot
    let p :=
      if isNcq (env.guest.byte ((p.ioreq k).cfis + 2)) then { p with sact := remove p.sact slot }
      else { p with ci := remove p.ci slot }
    releaseIoreq { p with pending := remove p.pending slot, notes := p.notes ++ [.cancelled slot] } k
  else p

def ahciPortStop (p : AhciPort) : Except Fault AhciPort :=
  if p.bctx then .ok (ahciCheckStopped (p.iobhd.foldl (stopIoreq env) p)) else .error .nullPointer

def isDsm (cfis : Cfis) : Bool :=
  cfis 2 == ataDataSetManagement ||
    (cfis 2 == ataSendFpdmaQueued && cfis 13 &&& 0x1f == ataSfpdmaDsm)

def resumed (p : AhciPort) (aior : AhciIoreq) : Except Fault Command :=
  match p.cmdLst with
  | none => .error .nullPointer
  | some cmdLst =>
      .ok ⟨aior.slot, aior.cfis, readCfis env.guest aior.cfis,
        (cmdHdr env.guest cmdLst aior.slot).1⟩

def finishSlot (slot : Nat) (v : PortView) : Except Fault PortView :=
  goOn env ⟨v.hba, ahciCheckStopped (clearPending v.port slot)⟩

def ataReply (c : Command) (err : Bool) (v : PortView) : PortView :=
  let tfd := if err then abortTfd else doneTfd
  if isNcq (c.cfis 2) then ahciWriteFisSdb v c.slot c.cfis tfd else c.reply tfd v

def ataResume (c : Command) (done : BitVec 32) (v : PortView) : Except Fault PortView :=
  if isDsm c.cfis then
    match ahciHandleDsmTrim env.guest env.disk c done v with
    | .error fault => .error fault
    | .ok (v, again) => if again then goOn env v else .ok v
  else ahciHandleRw env.guest env.disk c done v

def ataIoreqCb (k : Nat) (err : Bool) (v : PortView) : Except Fault PortView :=
  let aior := v.port.ioreq k
  let v := ⟨v.hba, releaseIoreq v.port k⟩
  if err then
    let c := ⟨aior.slot, aior.cfis, readCfis env.guest aior.cfis, 0⟩
    finishSlot env aior.slot (ataReply c true v)
  else
    match resumed env v.port aior with
    | .error fault => .error fault
    | .ok c =>
        if aior.more then ataResume env c aior.done v
        else finishSlot env aior.slot (ataReply c false v)

def atapiReply (c : Command) (err : Bool) (v : PortView) : PortView :=
  if err then c.refuse 0x21 v else c.succeed v

def atapiIoreqCb (k : Nat) (err : Bool) (v : PortView) : Except Fault PortView :=
  let aior := v.port.ioreq k
  let v := ⟨v.hba, releaseIoreq v.port k⟩
  if err then
    let c := ⟨aior.slot, aior.cfis, readCfis env.guest aior.cfis, 0⟩
    finishSlot env aior.slot (atapiReply c true v)
  else
    match resumed env v.port aior with
    | .error fault => .error fault
    | .ok c =>
        if aior.more then atapiRead env.guest env.disk c aior.done v
        else finishSlot env aior.slot (atapiReply c false v)

def ioreqCb (k : Nat) (err : Bool) (v : PortView) : Except Fault PortView :=
  if k ∈ v.port.queued then
    if v.port.atapi then atapiIoreqCb env k err v else ataIoreqCb env k err v
  else .ok v

def ahciOffset : Nat := 0x100
def ahciStep : Nat := 0x80
def ahciMaxSlots : Nat := 32

def pClb : Nat := 0x00
def pClbu : Nat := 0x04
def pFb : Nat := 0x08
def pFbu : Nat := 0x0c
def pIs : Nat := 0x10
def pIe : Nat := 0x14
def pCmd : Nat := 0x18
def pSctl : Nat := 0x2c
def pSerr : Nat := 0x30
def pSact : Nat := 0x34
def pCi : Nat := 0x38

def cmdWritable : BitVec 32 :=
  cmdSt ||| cmdSud ||| cmdPod ||| cmdClo ||| cmdFre ||| cmdApste ||| cmdAtapi ||| cmdDlae |||
    cmdAlpe ||| cmdAsp ||| cmdIccMask

def startList (p : AhciPort) : AhciPort :=
  { p with
    cmd := p.cmd ||| cmdCr
    cmdLst := env.guest.host (p.clbu.setWidth 64 <<< 32 ||| p.clb.setWidth 64)
      (ahciClSize * ahciMaxSlots) }

def cmdReceive (value : BitVec 32) (p : AhciPort) : AhciPort :=
  let p :=
    if value &&& cmdFre ≠ 0 then
      { p with
        cmd := p.cmd ||| cmdFr
        rfis := env.guest.host (p.fbu.setWidth 64 <<< 32 ||| p.fb.setWidth 64) 256 }
    else { p with cmd := p.cmd &&& ~~~cmdFr }
  let p :=
    if value &&& cmdClo ≠ 0 then
      { p with tfd := p.tfd &&& ~~~(ataSBusy ||| ataSDrq), cmd := p.cmd &&& ~~~cmdClo }
    else p
  if value &&& cmdIccMask ≠ 0 then { p with cmd := p.cmd &&& ~~~cmdIccMask } else p

def portWriteCmd (value : BitVec 32) (v : PortView) : Except Fault PortView := do
  let p := { v.port with cmd := (v.port.cmd &&& ~~~cmdWritable) ||| (cmdWritable &&& value) }
  let p ← if value &&& cmdSt = 0 then ahciPortStop env p else .ok (startList env p)
  goOn env ⟨v.hba, cmdReceive env value p⟩

def pciAhciPortWrite (offset : Nat) (value : BitVec 32) (v : PortView) : Except Fault PortView :=
  let put := fun p => .ok (PortView.mk v.hba p)
  if offset = pClb then put { v.port with clb := value }
  else if offset = pClbu then put { v.port with clbu := value }
  else if offset = pFb then put { v.port with fb := value }
  else if offset = pFbu then put { v.port with fbu := value }
  else if offset = pIs then portWriteIs value v
  else if offset = pIe then portWriteIe value v
  else if offset = pCmd then portWriteCmd env value v
  else if offset = pSctl then .ok (portWriteSctl value v)
  else if offset = pSerr then put { v.port with serr := v.port.serr &&& ~~~value }
  else if offset = pSact then put { v.port with sact := v.port.sact ||| value }
  else if offset = pCi then goOn env ⟨v.hba, { v.port with ci := v.port.ci ||| value }⟩
  else .ok v

def pciAhciWrite (offset : Nat) (value : BitVec 32) (s : PciAhciSoftc) :
    Except Fault PciAhciSoftc :=
  if offset < ahciOffset then .ok (pciAhciHostWrite s offset value)
  else
    atPort s ((offset - ahciOffset) / ahciStep)
      (pciAhciPortWrite env ((offset - ahciOffset) % ahciStep) value)
end Ahci
