import Bhyve.E82545.Transmit

/-!
The registers of the transmit side and the thread that sends what the guest has put into the ring.
The thread drops the lock while it sends, and the guest can write registers between two packets.
-/
namespace E82545

def regTctl : BitVec 32 := 0x0400
def regTdbal : BitVec 32 := 0x3800
def regTdbah : BitVec 32 := 0x3804
def regTdlen : BitVec 32 := 0x3808
def regTdh : BitVec 32 := 0x3810
def regTdt : BitVec 32 := 0x3818
def tctlEn : BitVec 32 := 0x00000002

structure Tx where
  ctrl : BitVec 32
  vet : BitVec 32
  tctl : BitVec 32
  tdbal : BitVec 32
  tdbah : BitVec 32
  tdlen : BitVec 32
  tdh : BitVec 16
  tdhr : BitVec 16
  tdt : BitVec 16
  tdba : BitVec 64
  txdesc : Option Nat
  txctx : TxDesc
  txEnabled : Bool
  txActive : Bool

def txEntries (tx : Tx) : Nat := tx.tdlen.toNat / 16

/-- What sending leaves: the frames for the backend, the context, the next head, the number of
    descriptors, and whether one of them asks for a report. -/
structure Sent where
  frames : List Frame
  txctx : TxDesc
  head : Nat
  count : Nat
  tdwb : Bool

def transmitDone (ring : Nat → TxDesc) (entries size tail : Nat) :
    Nat → Nat → Except TxFault Bool
  | 0, head => if head = tail then .ok false else .error .hangs
  | fuel + 1, head =>
      if head = tail then .ok false
      else if entries ≤ head then .error .outsideRing
      else
        match transmitDone ring entries size tail fuel ((head + 1) % size) with
        | .error fault => .error fault
        | .ok tdwb => .ok (tdwb || decide ((ring head).lower &&& txdCmdRs ≠ 0))

def finishPacket (ring : Nat → TxDesc) (entries size ohead head desc : Nat) (ctx : TxDesc)
    (frames : List Frame) : Except TxFault Sent :=
  if size = 0 then .error .divideByZero
  else
    match transmitDone ring entries size ((head + 1) % size) size ohead with
    | .error fault => .error fault
    | .ok tdwb => .ok ⟨frames, ctx, (head + 1) % size, desc + 1, tdwb⟩

def vlanInserts (ctrl : BitVec 32) (last : TxDesc) : Bool :=
  decide (ctrl &&& ctrlVme ≠ 0) && decide (last.lower &&& txdCmdVle ≠ 0)

def sendPacket (tx : Tx) (last : TxDesc) (g : Gather) : Except TxFault (List Frame) :=
  if maxTxsegs < g.iovcnt then .ok []
  else
    let r := request tx.txctx last g.css
    let vlan := vlanInserts tx.ctrl last
    match hdrlenOf vlan r tx.txctx ((g.iovs.map Iov.len).headD 0) with
    | none => .ok []
    | some hdrlen =>
        match copyHdr hdrlen g.iovs with
        | .error fault => .error fault
        | .ok (hdr, rest) =>
            let p := ready vlan (tx.vet.setWidth 16) last.special r hdr rest
            if r.tso then sendTso tx.txctx p else sendPlain p hdrlen

def transmit (mem : GuestBytes) (ring : Nat → TxDesc) (head tail size : Nat) (tx : Tx) :
    Except TxFault Sent :=
  match gather mem ring (txEntries tx) size head tail with
  | .error fault => .error fault
  | .ok (.incomplete head) => .ok ⟨[], tx.txctx, head, 0, false⟩
  | .ok (.context d) => finishPacket ring (txEntries tx) size head head 0 d []
  | .ok (.packet last desc dsc g) =>
      match sendPacket tx dsc g with
      | .error fault => .error fault
      | .ok frames => finishPacket ring (txEntries tx) size head last desc tx.txctx frames

structure TxRun where
  head : Nat
  rhead : Nat
  tail : Nat
  size : Nat
  lim : Int
  tdwb : Bool

inductive TxThread where
  | idle
  | running (r : TxRun)
  | done (r : TxRun)

inductive TxWaiter where
  | ctl (value : BitVec 32)
  | reset
deriving DecidableEq

structure TxSys where
  tx : Tx
  intr : Intr
  thread : TxThread
  waiters : List TxWaiter

def txUpdateTdba (map : Guest2Host) (tx : Tx) : Tx :=
  let tdba := tx.tdbah ++ tx.tdbal
  { tx with tdba := tdba, txdesc := map tdba tx.tdlen.toNat }

def txPoll (s : TxSys) : TxSys :=
  if s.tx.txEnabled = false ∨ s.tx.tdhr = s.tx.tdt then
    { s with tx := { s.tx with txActive := false } }
  else
    { s with
      tx := { s.tx with txActive := true }
      thread := .running ⟨s.tx.tdh.toNat, s.tx.tdh.toNat, s.tx.tdt.toNat, txEntries s.tx,
        ((txEntries s.tx / 4 : Nat) : Int), false⟩ }

def txTurn (mem : GuestBytes) (ring : Nat → TxDesc) (r : TxRun) (s : TxSys) :
    Except TxFault TxSys :=
  if s.tx.txEnabled = false ∨ r.lim ≤ 0 then .ok { s with thread := .done r }
  else if s.tx.txdesc = none ∧ r.head ≠ r.tail then .error .nullPointer
  else
    match transmit mem ring r.head r.tail r.size s.tx with
    | .error fault => .error fault
    | .ok sent =>
        let tdwb := r.tdwb || sent.tdwb
        let s := { s with tx := { s.tx with txctx := sent.txctx } }
        if sent.count = 0 then .ok { s with thread := .done { r with rhead := sent.head, tdwb := tdwb } }
        else .ok { s with
          thread := .running { r with
            head := sent.head
            rhead := sent.head
            lim := r.lim - sent.count
            tdwb := tdwb } }

def txFinish (r : TxRun) (s : TxSys) : TxSys :=
  let tdh := BitVec.ofNat 16 r.head
  let cause := if r.tdwb then icrTxdw else 0
  let cause := if r.lim ≠ (r.size / 4 : Nat) ∧ tdh = s.tx.tdt then cause ||| icrTxqe else cause
  { s with
    tx := { s.tx with tdh := tdh, tdhr := BitVec.ofNat 16 r.rhead }
    intr := if cause ≠ 0 then icrAssert s.intr cause else s.intr
    thread := .idle }

def txCtl (map : Guest2Host) (value : BitVec 32) (s : TxSys) : TxSys :=
  let on := decide (value &&& tctlEn = tctlEn)
  if on = s.tx.txEnabled then s
  else if on then
    { s with tx := { txUpdateTdba map s.tx with txEnabled := true, tctl := value &&& ~~~0xfe800005 } }
  else { s with tx := { s.tx with txEnabled := false }, waiters := .ctl value :: s.waiters }

def txReset (tx : Tx) : Tx :=
  { tx with tdba := 0, txdesc := none, tctl := 0, tdlen := 0, tdt := 0, tdhr := 0, tdh := 0 }

def txWrite (map : Guest2Host) (offset value : BitVec 32) (s : TxSys) : TxSys :=
  if offset &&& 3 ≠ 0 then s
  else if offset = regCtrl ∨ offset = regCtrlDup then
    let s := { s with tx := { s.tx with ctrl := value &&& ~~~ctrlRst } }
    if value &&& ctrlRst ≠ 0 then
      { s with tx := { s.tx with txEnabled := false }, waiters := .reset :: s.waiters }
    else s
  else if offset = regVet then { s with tx := { s.tx with vet := value &&& ~~~0xffff0000 } }
  else if offset = regTctl then txCtl map value s
  else if offset = regTdbal then
    let tx := { s.tx with tdbal := value &&& ~~~0xf }
    { s with tx := if tx.txEnabled then txUpdateTdba map tx else tx }
  else if offset = regTdbah then { s with tx := { s.tx with tdbah := value } }
  else if offset = regTdlen then { s with tx := { s.tx with tdlen := value &&& ~~~0xfff0007f } }
  else if offset = regTdh then
    { s with tx := { s.tx with tdhr := value.setWidth 16, tdh := value.setWidth 16 } }
  else if offset = regTdt then { s with tx := { s.tx with tdt := value.setWidth 16 } }
  else { s with intr := intrWrite s.intr offset value }

def txWake (k : Nat) (s : TxSys) : TxSys :=
  if s.tx.txActive then s
  else
    match s.waiters[k]? with
    | some (.ctl value) =>
        { s with
          tx := { s.tx with tdba := 0, txdesc := none, tctl := value &&& ~~~0xfe800005 }
          waiters := s.waiters.eraseIdx k }
    | some .reset =>
        { s with tx := txReset s.tx, intr := intrReset s.intr, waiters := s.waiters.eraseIdx k }
    | none => s

inductive TxEvent where
  | write (offset value : BitVec 32)
  | wake (k : Nat)
  | poll
  | turn (mem : GuestBytes) (ring : Nat → TxDesc)
  | finish

def txStep (map : Guest2Host) (s : TxSys) : TxEvent → Except TxFault TxSys
  | .write offset value => .ok (txWrite map offset value s)
  | .wake k => .ok (txWake k s)
  | .poll =>
      match s.thread with
      | .idle => .ok (txPoll s)
      | _ => .ok s
  | .turn mem ring =>
      match s.thread with
      | .running r => txTurn mem ring r s
      | _ => .ok s
  | .finish =>
      match s.thread with
      | .done r => .ok (txFinish r s)
      | _ => .ok s

def blankDesc : TxDesc := ⟨0, 0, 0⟩

def txInit : TxSys where
  tx := ⟨0, 0, 0, 0, 0, 0, 0, 0, 0, 0, none, blankDesc, false, false⟩
  intr := intrInit
  thread := .idle
  waiters := []
end E82545
