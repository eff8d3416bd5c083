import Bhyve.Virtio.BlockRequests

/-!
The ports, queues and connections of pci_virtio_console.c. A turn of the loop in pci_vtcon_notify_tx
is one step, and so is each callback of a socket. What a socket has received, fewer
than 2^31 bytes, lies with its connection. Beside the state stand, for each port, the bytes read
while it was ready for them, and what its guest was given. paddr_guest2host maps every address of a
descriptor; interrupts are left out.
-/
namespace Vtcon
open ByteMemory Virtio BlockProc
open Vtblk (vqHasDescs viResetDev)

abbrev Byte := BitVec 8

def vtconMaxports : Nat := 16
def vtconMaxq : Nat := vtconMaxports * 2 + 2
def vtconHostcaps : BitVec 64 := 3

def vtconDeviceReady : BitVec 16 := 0
def vtconDeviceAdd : BitVec 16 := 1
def vtconPortReady : BitVec 16 := 3
def vtconConsolePort : BitVec 16 := 4
def vtconPortOpen : BitVec 16 := 6
def vtconPortName : BitVec 16 := 7

/-- A callback that is not there, a store behind a guest buffer, a failed assertion, or the use of
    a vector that vq_getchain has not filled in. -/
inductive Stop where
  | nullCallback
  | overrun
  | asserted
  | unfilled
  deriving DecidableEq

inductive Ending where
  | up
  | eof
  | reset
  deriving DecidableEq

structure Conn where
  pending : List Byte
  ending : Ending

structure Delivery where
  tlen : BitVec 32
  bytes : List Byte

structure Port where
  id : Nat
  name : List Byte
  console : Bool
  rxReady : Bool
  opened : Bool
  txq : Nat
  rxq : Nat
  conn : Option Conn
  consumed : List Byte
  given : List Delivery

structure Softc where
  queues : Nat → VqueueInfo
  descs : Nat → Descriptors
  mem : Mem
  ready : Bool
  ports : List Port

inductive PortRef where
  | control
  | port (i : Nat)
  deriving DecidableEq

def vqToPort (num : Nat) : PortRef :=
  if num = 0 ∨ num = 1 then .port 0
  else if num = 2 ∨ num = 3 then .control
  else .port (num / 2 - 1)

def portAdd (ports : List Port) (name : List Byte) : Option (List Port) :=
  if ports.length = vtconMaxports then none
  else
    let nports := ports.length + 1
    let txq := if nports - 1 = 0 then 0 else nports * 2
    some (ports ++
      [{ id := nports - 1
         name := name
         console := false
         rxReady := false
         opened := false
         txq := txq
         rxq := txq + 1
         conn := none
         consumed := []
         given := [] }])

def controlTxq : Nat := 2

variable (s : Softc)

def getchain (q : Nat) : Got := vqGetchain (s.descs q) vtconHostcaps 1 (s.queues q)

def relchain (vq : VqueueInfo) (idx : BitVec 16) (len : BitVec 32) : VqueueInfo :=
  vqRelchainPublish (vqRelchainPrepare vq idx len)

def Softc.setQueue (q : Nat) (vq : VqueueInfo) : Softc :=
  { s with queues := Function.update s.queues q vq }

def Softc.setPort (i : Nat) (p : Port) : Softc := { s with ports := s.ports.set i p }

structure Control where
  id : BitVec 32
  event : BitVec 16
  value : BitVec 16

structure Message where
  ctrl : Control
  payload : List Byte

def Message.length (m : Message) : Nat := 8 + m.payload.length

def Message.byte (m : Message) (j : Nat) : Byte :=
  if j < 4 then m.ctrl.id.extractLsb' (8 * j) 8
  else if j < 6 then m.ctrl.event.extractLsb' (8 * (j - 4)) 8
  else if j < 8 then m.ctrl.value.extractLsb' (8 * (j - 6)) 8
  else m.payload.getD (j - 8) 0

def controlSend (m : Message) : Except Stop Softc :=
  if vqHasDescs (s.queues controlTxq) then
    let got := getchain s controlTxq
    if got.ret ≠ 1 then .error .asserted
    else
      match got.pidx, got.iov with
      | some idx, [v] =>
          if v.len.toNat < m.length then .error .overrun
          else
            .ok { s.setQueue controlTxq (relchain got.vq idx (BitVec.ofNat 32 m.length)) with
              mem := scatterTo s.mem (span v.addr.toNat m.length) m.byte }
      | _, _ => .error .unfilled
  else .ok s

def sendAll : Softc → List Message → Except Stop Softc
  | s, [] => .ok s
  | s, m :: rest =>
      match controlSend s m with
      | .error stop => .error stop
      | .ok s => sendAll s rest

def openMessage (p : Port) : Message := ⟨⟨BitVec.ofNat 32 p.id, vtconPortOpen, 1⟩, []⟩

def announcePort (p : Port) : List Message :=
  [⟨⟨BitVec.ofNat 32 p.id, vtconDeviceAdd, 1⟩, []⟩,
   ⟨⟨BitVec.ofNat 32 p.id, vtconPortName, 1⟩, p.name⟩]

def answers (ctrl : Control) : List Message :=
  if ctrl.event = vtconDeviceReady then
    s.ports.flatMap fun p => announcePort p ++ if p.opened then [openMessage p] else []
  else if ctrl.event = vtconPortReady then
    match s.ports[ctrl.id.toNat]? with
    | none => []
    | some p => if p.console then [⟨⟨ctrl.id, vtconConsolePort, 1⟩, []⟩] else []
  else []

def controlOf (mem : Mem) (a : Nat) : Control :=
  ⟨read32 mem a, read16 mem (a + 4), read16 mem (a + 6)⟩

def controlTx (v : VirtioDesc) : Except Stop Softc :=
  let ctrl := controlOf s.mem v.addr.toNat
  sendAll { s with ready := s.ready || decide (ctrl.event = vtconDeviceReady) } (answers s ctrl)

inductive Read where
  | bytes (l : List Byte)
  | again
  | failed

/-- A read of a socket that does not block. An error is told once. -/
def Conn.read (c : Conn) (room : Nat) : Read × Conn :=
  if room = 0 then (.bytes [], c)
  else if c.pending ≠ [] then
    (.bytes (c.pending.take room), { c with pending := c.pending.drop room })
  else
    match c.ending with
    | .up => (.again, c)
    | .eof => (.bytes [], c)
    | .reset => (.failed, { c with ending := .eof })

structure RxEnd where
  vq : VqueueInfo
  mem : Mem
  conn : Conn
  given : List Delivery
  closes : Bool

def bytesAt (l : List Byte) : Mem := fun j => l.getD j 0

def Read.stops : Read → Option Bool
  | .bytes [] => some true
  | .again => some false
  | _ => none

def Read.delivery : Read → Delivery
  | .bytes l => ⟨BitVec.ofNat 32 l.length, l⟩
  | _ => ⟨-1, []⟩

def rxLoop (descs : Descriptors) : Nat → VqueueInfo → Mem → Conn → Except Stop RxEnd
  | 0, _, _, _ => .error .unfilled
  | fuel + 1, vq, mem, conn =>
      let got := vqGetchain descs vtconHostcaps 1 vq
      if got.ret ≠ 1 then .error .unfilled
      else
        match got.pidx, got.iov with
        | some idx, [v] =>
            let (result, conn) := conn.read v.len.toNat
            match result.stops with
            | some closes => .ok ⟨vqRetchains got.vq 1, mem, conn, [], closes⟩
            | none =>
                let d := result.delivery
                let vq := relchain got.vq idx d.tlen
                let places := (span v.addr.toNat v.len.toNat).take d.bytes.length
                let mem := scatterTo mem places (bytesAt d.bytes)
                if vqHasDescs vq then
                  match rxLoop descs fuel vq mem conn with
                  | .error stop => .error stop
                  | .ok r => .ok { r with given := d :: r.given }
                else .ok ⟨vq, mem, conn, [d], true⟩
        | _, _ => .error .unfilled

def dummyRead (c : Conn) : Option Conn × List Byte :=
  match c.read 2048 with
  | (.bytes [], _) => (none, [])
  | (.bytes l, c) => (some c, l)
  | (_, c) => (some c, [])

def sockRx (i : Nat) (p : Port) (c : Conn) : Except Stop Softc :=
  if p.rxReady = false then .ok (s.setPort i { p with conn := (dummyRead c).1 })
  else if vqHasDescs (s.queues p.txq) = false then
    .ok (s.setPort i
      { p with conn := (dummyRead c).1, consumed := p.consumed ++ (dummyRead c).2 })
  else
    match rxLoop (s.descs p.txq) 65536 (s.queues p.txq) s.mem c with
    | .error stop => .error stop
    | .ok r =>
        .ok ({ s.setQueue p.txq r.vq with mem := r.mem }.setPort i
          { p with
            conn := if r.closes then none else some r.conn
            consumed := p.consumed ++ c.pending.take (c.pending.length - r.conn.pending.length)
            given := p.given ++ r.given })

/-- Only one connection at a time; the guest is told of it, now or once it is ready. -/
def sockAccept (i : Nat) (p : Port) : Except Stop Softc :=
  if p.conn.isSome then .ok s
  else
    let p := { p with conn := some ⟨[], .up⟩ }
    if s.ready then controlSend (s.setPort i p) (openMessage p)
    else .ok (s.setPort i { p with opened := true })

/-- All of the bytes are taken unless it fails, and their number is kept in an int. -/
def streamWrite (len : BitVec 32) (fails : Bool) : Int := if fails then -1 else len.toInt

def sockTx (i : Nat) (p : Port) (v : VirtioDesc) (fails : Bool) : Softc :=
  if p.conn.isSome ∧ streamWrite v.len fails ≤ 0 then s.setPort i { p with conn := none } else s

/-- A turn of the loop of pci_vtcon_notify_tx. The assertion is about an unsigned number, which an
    error makes 65535. -/
def notifyTx (q : Nat) (fails : Bool) : Except Stop Softc :=
  let got := getchain s q
  if got.ret = 0 then .error .asserted
  else
    match got.pidx, got.iov with
    | some idx, v :: _ =>
        if got.ret < 0 then .error .unfilled
        else
          let called :=
            match vqToPort q with
            | .control => controlTx (s.setQueue q got.vq) v
            | .port i =>
                match s.ports[i]? with
                | none => .error .nullCallback
                | some p => .ok (sockTx (s.setQueue q got.vq) i p v fails)
          match called with
          | .error stop => .error stop
          | .ok s => .ok (s.setQueue q (relchain (s.queues q) idx 0))
    | _, _ => .error .unfilled

def notifyRx (q : Nat) : Softc :=
  match vqToPort q with
  | .control => s
  | .port i =>
      match s.ports[i]? with
      | none => s
      | some p => s.setPort i { p with rxReady := true }

inductive Event where
  | driver (avail : Nat → VringAvail) (descs : Nat → Descriptors) (mem : Mem)
  | notify (q : Nat) (fails : Bool)
  | accept (i : Nat)
  | arrive (i : Nat) (bytes : List Byte)
  | hangUp (i : Nat) (ending : Ending)
  | sockRx (i : Nat)

def withConn (i : Nat) (f : Port → Conn → Except Stop Softc) : Except Stop Softc :=
  match s.ports[i]? with
  | none => .ok s
  | some p =>
      match p.conn with
      | none => .ok s
      | some c => f p c

def step (s : Softc) : Event → Except Stop Softc
  | .driver avail descs mem =>
      .ok { s with
        queues := fun q => { s.queues q with avail := avail q }, descs := descs, mem := mem }
  | .notify q fails =>
      if vtconMaxq ≤ q then .ok s
      else if q % 2 = 0 then .ok (notifyRx s q)
      else if vqHasDescs (s.queues q) then notifyTx s q fails
      else .ok s
  | .accept i =>
      match s.ports[i]? with
      | none => .ok s
      | some p => sockAccept s i p
  | .arrive i bytes =>
      withConn s i fun p c =>
        if c.ending = .up then
          .ok (s.setPort i { p with conn := some { c with pending := c.pending ++ bytes } })
        else .ok s
  | .hangUp i ending =>
      withConn s i fun p c =>
        if c.ending = .up then .ok (s.setPort i { p with conn := some { c with ending := ending } })
        else .ok s
  | .sockRx i => withConn s i fun p c => sockRx s i p c

def portsAdd : List Port → List (List Byte) → Option (List Port)
  | ports, [] => some ports
  | ports, name :: rest => (portAdd ports name).bind fun ports => portsAdd ports rest

def pciVtconInit (names : List (List Byte)) (avail : Nat → VringAvail) (used : Nat → VringUsed)
    (descs : Nat → Descriptors) (mem : Mem) : Option Softc :=
  (portsAdd [] names).map fun ports =>
    { queues := fun q => viVqInit ⟨64, 0, 0, 0, 0, avail q, used q⟩
      descs := descs
      mem := mem
      ready := false
      ports := ports }

end Vtcon
