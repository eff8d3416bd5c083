import Mathlib.Data.BitVec

/-!
The controller registers, the queues and the admin commands of the NVMe device.
-/
namespace Nvme

inductive Fault where
  | assertion
  | divideByZero
  | outOfBounds
  | nullBase
  | hangs
deriving DecidableEq

def ccEn : BitVec 32 := 1
def ccShnMask : BitVec 32 := 0x0000c000
def ccWriteMask : BitVec 32 := 0x00ff0001
def ccNenWriteMask : BitVec 32 := 0x00003ff0
def cstsRdy : BitVec 32 := 1
def cstsShstMask : BitVec 32 := 0x0000000c
def cstsShstComplete : BitVec 32 := 0x00000008

def crCc : Nat := 0x14
def crAqa : Nat := 0x24
def crAsqLow : Nat := 0x28
def crAsqHi : Nat := 0x2c
def crAcqLow : Nat := 0x30
def crAcqHi : Nat := 0x34
def doorbellOffset : Nat := 0x1000

def cdw11Pc : BitVec 32 := 0x0001
def cdw11Ien : BitVec 32 := 0x0002
def cqInten : BitVec 32 := 0x01
def cqIntcoal : BitVec 32 := 0x02

def opcDeleteIoSq : BitVec 8 := 0x00
def opcCreateIoSq : BitVec 8 := 0x01
def opcGetLogPage : BitVec 8 := 0x02
def opcDeleteIoCq : BitVec 8 := 0x04
def opcCreateIoCq : BitVec 8 := 0x05
def opcIdentify : BitVec 8 := 0x06
def opcAbort : BitVec 8 := 0x08
def opcSetFeatures : BitVec 8 := 0x09
def opcGetFeatures : BitVec 8 := 0x0a
def opcAsyncEventRequest : BitVec 8 := 0x0c

def opcFlush : BitVec 8 := 0x00
def opcWrite : BitVec 8 := 0x01
def opcRead : BitVec 8 := 0x02
def opcWriteZeroes : BitVec 8 := 0x08
def opcDatasetManagement : BitVec 8 := 0x09

def scSuccess : BitVec 16 := 0x00
def scInvalidOpcode : BitVec 16 := 0x01
def scInvalidField : BitVec 16 := 0x02
def scDataTransferError : BitVec 16 := 0x04
def scInternalDeviceError : BitVec 16 := 0x06
def scInvalidNamespaceOrFormat : BitVec 16 := 0x0b
def scLbaOutOfRange : BitVec 16 := 0x80
def sctCommandSpecific : BitVec 16 := 1
def scInvalidQueueIdentifier : BitVec 16 := 0x01
def scInvalidLogPage : BitVec 16 := 0x09

def statusP : BitVec 16 := 1
def statusMask : BitVec 16 := 0x0ffe

def statusTc (type code : BitVec 16) : BitVec 16 := (type &&& 7) <<< 9 ||| (code &&& 0xff) <<< 1

def statusGenc (code : BitVec 16) : BitVec 16 := statusTc 0 code

def togglePhase (status : BitVec 16) (prev : Bool) : BitVec 16 :=
  if prev then status &&& ~~~statusP else status ||| statusP

structure Command where
  opc : BitVec 8
  cid : BitVec 16
  prp1 : BitVec 64
  cdw10 : BitVec 32
  cdw11 : BitVec 32
deriving DecidableEq

structure Completion where
  cdw0 : BitVec 32
  sqid : Nat
  sqhd : Nat
  cid : BitVec 16
  status : BitVec 16
deriving DecidableEq

def Completion.phase (c : Completion) : Bool := c.status.getLsbD 0

abbrev MapGpa := BitVec 64 → Nat → Option Nat

structure Host where
  map : MapGpa
  entries : Nat → Nat → Completion

structure SubmissionQueue where
  qbase : Option Nat
  size : Nat
  head : Nat
  tail : Nat
  cqid : Nat
  busy : Bool

structure CompletionQueue where
  qbase : Option Nat
  size : Nat
  tail : Nat
  head : Nat
  intrVec : Nat
  intrEn : BitVec 32
  entry : Nat → Completion

structure Softc where
  cc : BitVec 32
  csts : BitVec 32
  aqa : BitVec 32
  asq : BitVec 64
  acq : BitVec 64
  maxQueues : Nat
  numSqueues : Nat
  numCqueues : Nat
  submitQueues : Nat → SubmissionQueue
  complQueues : Nat → CompletionQueue
  msix : List Nat

def Softc.en (sc : Softc) : Bool := sc.cc.getLsbD 0
def Softc.rdy (sc : Softc) : Bool := sc.csts.getLsbD 0

def Softc.setSq (sc : Softc) (q : Nat) (sq : SubmissionQueue) : Softc :=
  { sc with submitQueues := Function.update sc.submitQueues q sq }

def Softc.setCq (sc : Softc) (q : Nat) (cq : CompletionQueue) : Softc :=
  { sc with complQueues := Function.update sc.complQueues q cq }

def resetSq (i : Nat) (sq : SubmissionQueue) : SubmissionQueue :=
  if i ≠ 0 then ⟨none, 0, 0, 0, 0, false⟩ else { sq with tail := 0, head := 0, busy := false }

def resetCq (i : Nat) (cq : CompletionQueue) : CompletionQueue :=
  if i ≠ 0 then { cq with qbase := none, size := 0, tail := 0, head := 0 }
  else { cq with tail := 0, head := 0 }

def resetLocked (sc : Softc) : Softc :=
  { sc with
    cc := 0
    csts := 0
    numCqueues := sc.maxQueues
    numSqueues := sc.maxQueues
    submitQueues := fun i =>
      if i < sc.maxQueues + 1 then resetSq i (sc.submitQueues i) else sc.submitQueues i
    complQueues := fun i =>
      if i < sc.maxQueues + 1 then resetCq i (sc.complQueues i) else sc.complQueues i }

def asqSize (sc : Softc) : Nat := (sc.aqa &&& 0xfff).toNat + 1
def acqSize (sc : Softc) : Nat := ((sc.aqa >>> 16) &&& 0xfff).toNat + 1

variable (host : Host)

def adminSq (sc : Softc) : SubmissionQueue :=
  { sc.submitQueues 0 with size := asqSize sc, qbase := host.map sc.asq (64 * asqSize sc) }

def adminCq (sc : Softc) : CompletionQueue :=
  let qbase := host.map sc.acq (16 * acqSize sc)
  { sc.complQueues 0 with
    size := acqSize sc
    qbase := qbase
    entry := host.entries (qbase.getD 0) }

def initController (sc : Softc) : Softc :=
  (sc.setSq 0 (adminSq host sc)).setCq 0 (adminCq host sc)

def shutdown (ccreg : BitVec 32) (sc : Softc) : Softc :=
  if ccreg &&& ccShnMask ≠ 0 then
    { sc with csts := (sc.csts &&& ~~~cstsShstMask) ||| cstsShstComplete }
  else sc

def transition (ccreg : BitVec 32) (sc : Softc) : Softc :=
  if ccreg.getLsbD 0 = sc.en then sc
  else if ccreg.getLsbD 0 then initController host sc
  else resetLocked sc

def insertCc (ccreg : BitVec 32) (pendingIos : Nat) (sc : Softc) : Softc :=
  let sc := { sc with cc := (sc.cc &&& ~~~ccWriteMask) ||| (ccreg &&& ccWriteMask) }
  if ccreg.getLsbD 0 = false then
    { sc with
      cc := (sc.cc &&& ~~~ccNenWriteMask) ||| (ccreg &&& ccNenWriteMask)
      csts := sc.csts &&& ~~~cstsRdy }
  else if pendingIos = 0 then { sc with csts := sc.csts ||| cstsRdy }
  else sc

def writeCc (ccreg : BitVec 32) (pendingIos : Nat) (sc : Softc) : Softc :=
  insertCc ccreg pendingIos (transition host ccreg (shutdown ccreg sc))

def writeReg (offset : Nat) (value : BitVec 32) (pendingIos : Nat) (sc : Softc) : Softc :=
  if offset = crCc then writeCc host value pendingIos sc
  else if offset = crAqa then { sc with aqa := value }
  else if offset = crAsqLow then
    { sc with asq := (sc.asq &&& 0xffffffff00000000) ||| (value &&& 0xfffff000).setWidth 64 }
  else if offset = crAsqHi then
    { sc with asq := (sc.asq &&& 0x00000000ffffffff) ||| value.setWidth 64 <<< 32 }
  else if offset = crAcqLow then
    { sc with acq := (sc.acq &&& 0xffffffff00000000) ||| (value &&& 0xfffff000).setWidth 64 }
  else if offset = crAcqHi then
    { sc with acq := (sc.acq &&& 0x00000000ffffffff) ||| value.setWidth 64 <<< 32 }
  else sc

structure AdminResult where
  sc : Softc
  completion : Option (BitVec 32 × BitVec 16)

def low16 (x : BitVec 32) : Nat := (x &&& 0xffff).toNat
def high16 (x : BitVec 32) : Nat := (x >>> 16).toNat

def done (sc : Softc) (status : BitVec 16) : AdminResult := ⟨sc, some (0, status)⟩

def invalidQueue : BitVec 16 := statusTc sctCommandSpecific scInvalidQueueIdentifier

variable (cmd : Command)

def deleteIoSq (sc : Softc) : AdminResult :=
  let qid := low16 cmd.cdw10
  if qid = 0 ∨ qid > sc.numSqueues then done sc invalidQueue
  else done (sc.setSq qid { sc.submitQueues qid with qbase := none }) (statusGenc scSuccess)

def newSq (sq : SubmissionQueue) : SubmissionQueue :=
  let size := high16 cmd.cdw10 + 1
  { sq with size := size, qbase := host.map cmd.prp1 (64 * size), cqid := high16 cmd.cdw11 }

def createIoSq (sc : Softc) : AdminResult :=
  let qid := low16 cmd.cdw10
  if cmd.cdw11 &&& cdw11Pc ≠ 0 then
    if qid = 0 ∨ qid > sc.numSqueues then done sc invalidQueue
    else done (sc.setSq qid (newSq host cmd (sc.submitQueues qid))) (statusGenc scSuccess)
  else done sc (statusGenc scInvalidField)

def deleteIoCq (sc : Softc) : AdminResult :=
  let qid := low16 cmd.cdw10
  if qid = 0 ∨ qid > sc.numCqueues then done sc invalidQueue
  else done (sc.setCq qid { sc.complQueues qid with qbase := none }) (statusGenc scSuccess)

def newCq (cq : CompletionQueue) : CompletionQueue :=
  let size := high16 cmd.cdw10 + 1
  let qbase := host.map cmd.prp1 (64 * size)
  { cq with
    intrEn := (cmd.cdw11 &&& cdw11Ien) >>> 1
    intrVec := high16 cmd.cdw11
    size := size
    qbase := qbase
    entry := host.entries (qbase.getD 0) }

def createIoCq (sc : Softc) : AdminResult :=
  let qid := low16 cmd.cdw10
  if cmd.cdw11 &&& cdw11Pc ≠ 0 then
    if qid = 0 ∨ qid > sc.numCqueues then done sc invalidQueue
    else done (sc.setCq qid (newCq host cmd (sc.complQueues qid))) (statusGenc scSuccess)
  else done sc (statusGenc 0x12)

def getLogPage (sc : Softc) : AdminResult :=
  let logpage := (cmd.cdw10 &&& 0xff).toNat
  if logpage = 1 ∨ logpage = 2 ∨ logpage = 3 then done sc (statusGenc scSuccess)
  else done sc (statusTc sctCommandSpecific scInvalidLogPage)

def identify (sc : Softc) : AdminResult :=
  let cns := (cmd.cdw10 &&& 0xff).toNat
  if cns = 0 ∨ cns = 1 ∨ cns = 2 then done sc (statusGenc scSuccess)
  else if cns = 0x11 then done sc (statusGenc scInvalidNamespaceOrFormat)
  else done sc (statusGenc scInvalidField)

def featureNumQueues (sc : Softc) : BitVec 32 :=
  (BitVec.ofNat 32 (sc.numSqueues - 1) &&& 0xffff) |||
    (BitVec.ofNat 32 (sc.numCqueues - 1) &&& 0xffff) <<< 16

def setFeatureQueues (sc : Softc) : Softc × BitVec 32 :=
  let nsqr := low16 cmd.cdw11
  let ncqr := high16 cmd.cdw11
  if nsqr = 0xffff then (sc, 0)
  else
    let sc := { sc with numSqueues := min (nsqr + 1) sc.maxQueues }
    if ncqr = 0xffff then (sc, 0)
    else
      let sc := { sc with numCqueues := min (ncqr + 1) sc.maxQueues }
      (sc, featureNumQueues sc)

def coalesce (sc : Softc) : Softc :=
  let intrEn := fun cq : CompletionQueue =>
    if cmd.cdw11 &&& 0x10000 ≠ 0 then cq.intrEn ||| cqIntcoal else cq.intrEn &&& ~~~cqIntcoal
  { sc with
    complQueues := fun i =>
      if i < sc.numCqueues + 1 ∧ (sc.complQueues i).intrVec = low16 cmd.cdw11 then
        { sc.complQueues i with intrEn := intrEn (sc.complQueues i) }
      else sc.complQueues i }

def setFeatures (sc : Softc) : AdminResult :=
  let feature := (cmd.cdw10 &&& 0xff).toNat
  let success := statusGenc scSuccess
  if feature = 7 then
    ⟨(setFeatureQueues cmd sc).1, some ((setFeatureQueues cmd sc).2, success)⟩
  else if feature = 9 then done (coalesce cmd sc) success
  else if feature ∈ [1, 2, 3, 4, 5, 6, 8, 0xa, 0xb, 0xc, 0x80] then done sc success
  else done sc (statusGenc scInvalidField)

def getFeatures (sc : Softc) : AdminResult :=
  let feature := (cmd.cdw10 &&& 0xff).toNat
  let success := statusGenc scSuccess
  if feature = 4 then
    let select := ((cmd.cdw11 >>> 20) &&& 3).toNat
    if select = 0 then ⟨sc, some (0xffff, success)⟩
    else if select = 1 then done sc success
    else done sc (statusGenc scInvalidField)
  else if feature = 7 then ⟨sc, some (featureNumQueues sc, success)⟩
  else if feature ∈ [1, 2, 3, 5, 6, 8, 9, 0xa, 0xb, 0xc, 0x80] then done sc success
  else done sc (statusGenc scInvalidField)

def adminCmd (sc : Softc) : AdminResult :=
  if cmd.opc = opcDeleteIoSq then deleteIoSq cmd sc
  else if cmd.opc = opcCreateIoSq then createIoSq host cmd sc
  else if cmd.opc = opcDeleteIoCq then deleteIoCq cmd sc
  else if cmd.opc = opcCreateIoCq then createIoCq host cmd sc
  else if cmd.opc = opcGetLogPage then getLogPage cmd sc
  else if cmd.opc = opcIdentify then identify cmd sc
  else if cmd.opc = opcAbort then ⟨sc, some (1, statusGenc scSuccess)⟩
  else if cmd.opc = opcSetFeatures then setFeatures cmd sc
  else if cmd.opc = opcGetFeatures then getFeatures cmd sc
  else if cmd.opc = opcAsyncEventRequest then ⟨sc, none⟩
  else done sc (statusGenc scInvalidOpcode)

def putCompletion (cq : CompletionQueue) (c : Completion) : CompletionQueue :=
  { cq with
    entry := Function.update cq.entry cq.tail
      { c with status := togglePhase c.status (cq.entry cq.tail).phase }
    tail := (cq.tail + 1) % cq.size }

def notifyIo (cq : CompletionQueue) (sc : Softc) : Softc :=
  if cq.head ≠ cq.tail ∧ cq.intrEn &&& cqInten ≠ 0 then { sc with msix := cq.intrVec :: sc.msix }
  else sc

def setCompletion (q sqid : Nat) (cid : BitVec 16) (status : BitVec 16) (sc : Softc) :
    Except Fault Softc :=
  let sq := sc.submitQueues q
  if sq.cqid > sc.maxQueues then .error .outOfBounds
  else
    let cq := sc.complQueues sq.cqid
    if cq.qbase = none then .error .assertion
    else if cq.tail ≥ cq.size then .error .outOfBounds
    else
      let cq := putCompletion cq ⟨0, sqid, sq.head, cid, status⟩
      .ok (notifyIo cq (sc.setCq sq.cqid cq))

def adminCompletion (sqhead : Nat) (result : AdminResult) : Except Fault Softc :=
  match result.completion with
  | none => .ok result.sc
  | some (cdw0, status) =>
      let cq := result.sc.complQueues 0
      if cq.qbase = none then .error .nullBase
      else if cq.tail ≥ cq.size then .error .outOfBounds
      else .ok (result.sc.setCq 0 (putCompletion cq ⟨cdw0, 0, sqhead, cmd.cid, status⟩))

def fetch (q sqhead : Nat) (sc : Softc) : Except Fault Nat :=
  let sq := sc.submitQueues q
  if q > sc.maxQueues then .error .outOfBounds
  else if sq.qbase = none then .error .nullBase
  else if sq.size = 0 then .error .divideByZero
  else if sqhead ≥ sq.size then .error .outOfBounds
  else .ok ((sqhead + 1) % sq.size)
end Nvme
