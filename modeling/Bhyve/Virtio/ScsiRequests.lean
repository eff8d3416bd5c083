import Bhyve.Virtio.BlockRequests
import Bhyve.Virtio.Iov

/-!
The control and the request queue of pci_virtio_scsi.c. A turn of one of the notify loops is a step,
and a worker takes a request, handles it and releases its chain in three. The guest may write to its
memory and to the rings between steps. What CTL answers, and what malloc leaves in a buffer, come
with the step; a read or a write behind the end of an array or a buffer stops the run.
-/
namespace Vtscsi
open ByteMemory Virtio BlockProc Iov
open Vtblk (vqHasDescs viResetDev vringDescFWrite)

def vtscsiMaxseg : Nat := 64
def vtscsiThrPerQ : Nat := 16
def vtscsiHostcaps : BitVec 64 := 0

def virtioScsiTTmf : BitVec 32 := 0
def virtioScsiSOk : Byte := 0
def virtioScsiSFailure : Byte := 9
def virtioScsiSOrdered : Byte := 1
def virtioScsiSHead : Byte := 2
def virtioScsiSAca : Byte := 3

inductive TagType where
  | simple
  | ordered
  | headOfQueue
  | aca
  deriving DecidableEq

inductive TaskAction where
  | abortTask
  | abortTaskSet
  | clearAca
  | clearTaskSet
  | iTNexusReset
  | lunReset
  | queryTask
  | queryTaskSet
  deriving DecidableEq

inductive Stop where
  | outside
  deriving DecidableEq

structure Config where
  senseSize : Nat
  cdbSize : Nat

variable (c : Config)

def Config.inHeaderLen : Nat := 19 + c.cdbSize

def Config.outHeaderLen : Nat := 12 + c.senseSize

def byte (buf : List Byte) (off : Nat) : Byte := buf.getD off 0

def word (buf : List Byte) (off : Nat) : BitVec 32 := read32 (byte buf) off

def getLun (buf : List Byte) (lun : Nat) : BitVec 16 :=
  (((byte buf (lun + 2)).setWidth 16 <<< 8) ||| (byte buf (lun + 3)).setWidth 16) &&& 0x3fff

def iovOf (v : VirtioDesc) : Iovec := ⟨v.addr.toNat, v.len.toNat⟩

structure Task where
  targLun : BitVec 16
  tagNum : BitVec 32
  taskAction : Option TaskAction

def taskAction (subtype : BitVec 32) : Option TaskAction :=
  if subtype = 0 then some .abortTask
  else if subtype = 1 then some .abortTaskSet
  else if subtype = 2 then some .clearAca
  else if subtype = 3 then some .clearTaskSet
  else if subtype = 4 then some .iTNexusReset
  else if subtype = 5 then some .lunReset
  else if subtype = 6 then some .queryTask
  else if subtype = 7 then some .queryTaskSet
  else none

/-- The buffer with the response, the length to be returned, and the task. None where the buffer is
    too short for what is read or written. -/
def tmfHandle (taskStatus : Byte) (buf : List Byte) : Option (List Byte × Nat × Option Task) :=
  if buf.length < 25 then none
  else some (buf.set 24 taskStatus, 1, some ⟨getLun buf 8, word buf 16, taskAction (word buf 4)⟩)

/-- A query for asynchronous notifications gets no answer, as no other type does. -/
def controlHandle (taskStatus : Byte) (buf : List Byte) : Option (List Byte × Nat × Option Task) :=
  if buf.length < 4 then none
  else if word buf 0 = virtioScsiTTmf then tmfHandle taskStatus buf
  else some (buf, 0, none)

structure Controlled where
  mem : Mem
  task : Option Task
  written : Nat
  iolen : Nat

def controlChain (mem : Mem) (iov : List Iovec) (taskStatus : Byte) : Option Controlled :=
  match controlHandle taskStatus (iovToBuf mem iov) with
  | none => none
  | some (buf, iolen, task) =>
      let back := bufToIov mem (buf.drop (buf.length - iolen)) iov (buf.length - iolen)
      some ⟨back.1, task, back.2, iolen⟩

structure Header where
  targLun : BitVec 16
  tagNum : BitVec 32
  tagType : TagType
  cdb : List Byte
  deriving DecidableEq

def tagType (taskAttr : Byte) : TagType :=
  if taskAttr = virtioScsiSOrdered then .ordered
  else if taskAttr = virtioScsiSHead then .headOfQueue
  else if taskAttr = virtioScsiSAca then .aca
  else .simple

/-- Where the reads of the header end: the CDB is at its end, and may be empty. -/
def Config.readEnd : Nat := if c.cdbSize = 0 then 17 else 19 + c.cdbSize

def readHeader (buf : List Byte) : Option Header :=
  if buf.length < c.readEnd then none
  else some
    { targLun := getLun buf 0
      tagNum := word buf 8
      tagType := tagType (byte buf 16)
      cdb := (List.range c.cdbSize).map fun i => byte buf (19 + i) }

inductive DataFlow where
  | none
  | toDevice
  | toGuest
  deriving DecidableEq

structure Answer where
  err : Bool
  senseLen : Byte
  residual : BitVec 32
  scsiStatus : Byte
  senseData : Mem
  extDataFilled : BitVec 32
  data : Mem

def cmdWr (answer : Answer) (heap : Mem) : Mem :=
  if answer.err then write8 heap 11 virtioScsiSFailure
  else
    let senseLen := min answer.senseLen.toNat c.senseSize
    let wr := write32 heap 0 (BitVec.ofNat 32 senseLen)
    let wr := write32 wr 4 answer.residual
    let wr := write8 wr 10 answer.scsiStatus
    let wr := write8 wr 11 virtioScsiSOk
    copyInto wr 12 senseLen answer.senseData

structure Handled where
  mem : Mem
  header : Header
  flow : DataFlow
  extData : List Iovec
  extDataLen : BitVec 32
  /-- The response as far as it reaches the guest, and all that has been written to the chain. -/
  response : List Byte
  written : Nat
  nxferred : BitVec 32

def requestHandle (mem : Mem) (iovIn iovOut : List Iovec) (answer : Answer)
    (heap : Mem) : Option Handled :=
  let dataIn := seekIov iovIn c.inHeaderLen
  let dataOut := seekIov iovOut c.outHeaderLen
  let iovIn := truncateIov iovIn c.inHeaderLen
  let iovOut := truncateIov iovOut c.outHeaderLen
  match readHeader c (iovToBuf mem iovIn) with
  | none => none
  | some header =>
      let flow := if dataIn ≠ [] then .toDevice else if dataOut ≠ [] then .toGuest else .none
      let extData := if dataIn ≠ [] then dataIn else dataOut
      let filled := if flow = .toGuest then (places extData).take answer.extDataFilled.toNat else []
      let mem := scatterTo mem filled answer.data
      let wr := (List.range c.outHeaderLen).map (cmdWr c answer heap)
      let back := bufToIov mem wr iovOut 0
      some
        { mem := back.1
          header := header
          flow := flow
          extData := extData
          extDataLen := BitVec.ofNat 32 (countIov extData)
          response := wr.take back.2
          written := filled.length + back.2
          nxferred := BitVec.ofNat 32 (c.outHeaderLen + answer.extDataFilled.toNat) }

/-- The chain as it was taken, with its number, is kept beside what the code has of it. -/
structure Request where
  idx : BitVec 16
  iovIn : List Iovec
  iovOut : List Iovec
  descs : List VirtioDesc
  chain : Nat

structure Softc where
  ctlVq : VqueueInfo
  reqVq : VqueueInfo
  config : Config
  mem : Mem
  requests : List Request
  running : List Request
  finished : List (Request × BitVec 32)
  taken : Nat
  released : List Nat

inductive Event where
  | driver (ctl req : VringAvail) (mem : Mem)
  | controlq (descs : Descriptors) (taskStatus : Byte)
  | requestq (descs : Descriptors)
  | take
  | handle (j : Nat) (answer : Answer) (heap : Mem)
  | release (j : Nat)
  | reset
  | init (ctl req : VringAvail) (ctlUsed reqUsed : VringUsed)

def readable (v : VirtioDesc) : Bool := !hasFlag v.flags vringDescFWrite

def getchain (vq : VqueueInfo) (descs : Descriptors) : Got :=
  vqGetchain descs vtscsiHostcaps vtscsiMaxseg vq

def relchain (vq : VqueueInfo) (idx : BitVec 16) (iolen : BitVec 32) : VqueueInfo :=
  vqRelchainPublish (vqRelchainPrepare vq idx iolen)

/-- The count is unsigned, so that an error counts 65535 descriptors. -/
def inRange (got : Got) : Bool := decide (0 ≤ got.ret ∧ got.ret ≤ (vtscsiMaxseg : Int))

def controlqTurn (s : Softc) (descs : Descriptors) (taskStatus : Byte) : Except Stop Softc :=
  let got := getchain s.ctlVq descs
  if inRange got = false then .error .outside
  else
    match got.pidx, controlChain s.mem (got.iov.map iovOf) taskStatus with
    | some idx, some done =>
        .ok { s with
          mem := done.mem
          ctlVq := relchain got.vq idx (BitVec.ofNat 32 done.iolen)
          taken := s.taken + 1
          released := s.released ++ [s.taken] }
    | _, _ => .error .outside

def requestOf (idx : BitVec 16) (descs : List VirtioDesc) (chain : Nat) : Request :=
  let count := (descs.takeWhile readable).length
  { idx := idx
    iovIn := (descs.take count).map iovOf
    iovOut := (descs.drop count).map iovOf
    descs := descs
    chain := chain }

def requestqTurn (s : Softc) (descs : Descriptors) : Except Stop Softc :=
  let got := getchain s.reqVq descs
  if inRange got = false then .error .outside
  else
    match got.pidx with
    | none => .error .outside
    | some idx =>
        .ok { s with
          reqVq := got.vq
          requests := s.requests ++ [requestOf idx got.iov s.taken]
          taken := s.taken + 1 }

def takeRequest (s : Softc) : Softc :=
  match s.requests with
  | [] => s
  | req :: rest =>
      if s.running.length + s.finished.length < vtscsiThrPerQ then
        { s with requests := rest, running := s.running ++ [req] }
      else s

def handleRequest (s : Softc) (j : Nat) (answer : Answer) (heap : Mem) : Except Stop Softc :=
  match s.running[j]? with
  | none => .ok s
  | some req =>
      match requestHandle s.config s.mem req.iovIn req.iovOut answer heap with
      | none => .error .outside
      | some done =>
          .ok { s with
            mem := done.mem
            running := s.running.eraseIdx j
            finished := s.finished ++ [(req, done.nxferred)] }

def releaseRequest (s : Softc) (j : Nat) : Softc :=
  match s.finished[j]? with
  | none => s
  | some (req, iolen) =>
      { s with
        reqVq := relchain s.reqVq req.idx iolen
        finished := s.finished.eraseIdx j
        released := s.released ++ [req.chain] }

def pciVtscsiReset (s : Softc) : Softc :=
  { s with
    ctlVq := viResetDev s.ctlVq
    reqVq := viResetDev s.reqVq
    config := ⟨96, 32⟩ }

def step (s : Softc) : Event → Except Stop Softc
  | .driver ctl req mem =>
      .ok { s with
        ctlVq := { s.ctlVq with avail := ctl }, reqVq := { s.reqVq with avail := req }, mem := mem }
  | .controlq descs taskStatus =>
      if vqHasDescs s.ctlVq then controlqTurn s descs taskStatus else .ok s
  | .requestq descs => if vqHasDescs s.reqVq then requestqTurn s descs else .ok s
  | .take => .ok (takeRequest s)
  | .handle j answer heap => handleRequest s j answer heap
  | .release j => .ok (releaseRequest s j)
  | .reset => .ok (pciVtscsiReset s)
  | .init ctl req ctlUsed reqUsed =>
      .ok { s with
        ctlVq := viVqInit { s.ctlVq with avail := ctl, used := ctlUsed }
        reqVq := viVqInit { s.reqVq with avail := req, used := reqUsed } }

def pciVtscsiInit (mem : Mem) (avail : VringAvail) (used : VringUsed) : Softc :=
  { ctlVq := ⟨64, 0, 0, 0, 0, avail, used⟩
    reqVq := ⟨64, 0, 0, 0, 0, avail, used⟩
    config := ⟨0, 0⟩
    mem := mem
    requests := []
    running := []
    finished := []
    taken := 0
    released := [] }

end Vtscsi
