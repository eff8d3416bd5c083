import Bhyve.E82545.Device

/-!
The receive side of the network adapter: the registers of the guest, and the callback of the
backend, which drops the lock between the packets it takes.
-/
namespace E82545

inductive Fault where
  | assertion
  | divideByZero
  | nullPointer
deriving DecidableEq

def regCtrl : BitVec 32 := 0x0000
def regCtrlDup : BitVec 32 := 0x0004
def regVet : BitVec 32 := 0x0038
def regRctl : BitVec 32 := 0x0100
def regRdbal : BitVec 32 := 0x2800
def regRdbah : BitVec 32 := 0x2804
def regRdlen : BitVec 32 := 0x2808
def regRdh : BitVec 32 := 0x2810
def regRdt : BitVec 32 := 0x2818
def regRsrpd : BitVec 32 := 0x2c00
def regVfta : BitVec 32 := 0x5600

def ctrlRst : BitVec 32 := 0x04000000
def rctlEn : BitVec 32 := 0x00000002
def rctlLpe : BitVec 32 := 0x00000020
def rctlLbmTcvr : BitVec 32 := 0x000000c0
def rctlSz1024 : BitVec 32 := 0x00010000
def rctlSz512 : BitVec 32 := 0x00020000
def rctlSz256 : BitVec 32 := 0x00030000
def rctlVfe : BitVec 32 := 0x00040000
def rctlBsex : BitVec 32 := 0x02000000
def rctlSecrc : BitVec 32 := 0x04000000

def rxdStatDd : BitVec 8 := 0x01
def rxdStatEop : BitVec 8 := 0x02
def rxdStatIxsm : BitVec 8 := 0x04
def rxdStatPif : BitVec 8 := 0x80

structure RxDesc where
  length : BitVec 16
  csum : BitVec 16
  status : BitVec 8
  errors : BitVec 8
  special : BitVec 16
deriving DecidableEq

structure Rx where
  ctrl : BitVec 32
  vet : BitVec 32
  fvlan : Nat → BitVec 32
  rctl : BitVec 32
  rdbal : BitVec 32
  rdbah : BitVec 32
  rdlen : BitVec 32
  rdh : BitVec 16
  rdt : BitVec 16
  rsrpd : BitVec 32
  rdba : BitVec 64
  rxdesc : Option Nat
  rxEnabled : Bool
  rxActive : Bool
  rxLoopback : Bool

abbrev Guest2Host := BitVec 64 → Nat → Option Nat

def bufsz (rctl : BitVec 32) : Nat :=
  let size := rctl &&& (rctlBsex ||| rctlSz256)
  if size = 0 then 2048
  else if size = rctlSz1024 then 1024
  else if size = rctlSz512 then 512
  else if size = rctlSz256 then 256
  else if size = rctlBsex ||| rctlSz1024 then 16384
  else if size = rctlBsex ||| rctlSz512 then 8192
  else if size = rctlBsex ||| rctlSz256 then 4096
  else 256

variable (map : Guest2Host)

def rxUpdateRdba (rx : Rx) : Rx :=
  let rdba := rx.rdbah ++ rx.rdbal
  { rx with rdba := rdba, rxdesc := map rdba rx.rdlen.toNat }

structure Packet where
  len : Int
  etherType : BitVec 16
  tci : BitVec 16

structure RxRun where
  bufsz : Nat
  maxpktdesc : Nat
  size : Nat
  head : Nat
  left : Int
  lim : Int
  cause : BitVec 32

inductive RxThread where
  | idle
  | ready (r : RxRun)
  | received (r : RxRun) (len n : Nat)
  | done (r : RxRun)

inductive Waiter where
  | ctl
  | resetRx
  | resetTx
deriving DecidableEq

/-- What the callback did, with the registers at that time: the descriptors of a packet, at the
    array that was mapped, and the new head. -/
inductive RxNote where
  | packet (base size bufsz rdh rdt len : Nat) (entries : List (Nat × RxDesc))
  | advance (size rdh rdt head : Nat)

structure RxSys where
  rx : Rx
  intr : Intr
  thread : RxThread
  waiters : List Waiter
  notes : List RxNote

def rxEntries (s : Rx) : Nat := s.rdlen.toNat / 16

def maxPktDesc (rctl : BitVec 32) : Nat :=
  ((if rctl &&& rctlLpe ≠ 0 then 16384 else 1522) + bufsz rctl - 1) / bufsz rctl

/-- The number of descriptors from the head to the tail, as the code works it out. -/
def leftOf (size : Nat) (rdt : BitVec 16) (head : Nat) : Int :=
  Int.tmod ((size : Int) + rdt.toNat - head) size

def rxBegin (s : RxSys) : Except Fault RxSys :=
  if s.rx.rxEnabled = false ∨ s.rx.rxLoopback = true then .ok s
  else
    let size := rxEntries s.rx
    if size = 0 then .error .divideByZero
    else
      let left := leftOf size s.rx.rdt s.rx.rdh.toNat
      if left < maxPktDesc s.rx.rctl then .ok s
      else
        .ok { s with
          rx := { s.rx with rxActive := true }
          thread := .ready ⟨bufsz s.rx.rctl, maxPktDesc s.rx.rctl, size, s.rx.rdh.toNat, left,
            size / 4, 0⟩ }

/-- The length of a packet as it is reported, padded and with its CRC. -/
def adjusted (rctl : BitVec 32) (len : Nat) : Nat :=
  let len := if len < 60 then 60 else len
  if rctl &&& rctlSecrc = 0 then len + 4 else len

def vlanRejects (rx : Rx) (p : Packet) : Bool :=
  decide (rx.rctl &&& rctlVfe ≠ 0) && decide (p.etherType.setWidth 32 = rx.vet) &&
    !(rx.fvlan ((p.tci &&& 0xfff).toNat / 32)).getLsbD ((p.tci &&& 0xfff).toNat % 32)

/-- netbe_recv fills the buffers and gives the number of bytes in them. -/
def netbeRecv (r : RxRun) (p : Packet) : Int := min p.len (r.maxpktdesc * r.bufsz : Nat)

def rxReceive (p : Packet) (r : RxRun) (s : RxSys) : Except Fault RxSys :=
  if 0 < r.lim ∧ (r.maxpktdesc : Int) ≤ r.left then
    match s.rx.rxdesc with
    | none => .error .nullPointer
    | some _ =>
        let len := netbeRecv r p
        if len ≤ 0 then .ok { s with thread := .done r }
        else
          let len := adjusted s.rx.rctl len.toNat
          if vlanRejects s.rx p then .ok { s with thread := .ready r }
          else .ok { s with thread := .received r len ((len + r.bufsz - 1) / r.bufsz) }
  else .ok { s with thread := .done r }

def fullDesc (r : RxRun) : RxDesc := ⟨BitVec.ofNat 16 r.bufsz, 0, rxdStatDd, 0, 0⟩

def lastDesc (r : RxRun) (len : Nat) : RxDesc :=
  ⟨BitVec.ofNat 16 (len % r.bufsz), 0, rxdStatPif ||| rxdStatIxsm ||| rxdStatEop ||| rxdStatDd,
    0, 0⟩

def updates (r : RxRun) (len n : Nat) : List (Nat × RxDesc) :=
  (List.range (n - 1)).map (fun i => ((r.head + i) % r.size, fullDesc r)) ++
    [((r.head + (n - 1)) % r.size, lastDesc r len)]

def rxFill (r : RxRun) (len n : Nat) (s : RxSys) : Except Fault RxSys :=
  match s.rx.rxdesc with
  | none => .error .nullPointer
  | some base =>
      let cause :=
        if len ≤ s.rx.rsrpd.toNat then r.cause ||| (icrSrpd ||| icrRxt0) else r.cause ||| icrRxt0
      .ok { s with
        thread := .ready { r with
          cause := cause
          head := (r.head + n) % r.size
          left := r.left - n
          lim := r.lim - n }
        notes := .packet base (rxEntries s.rx) r.bufsz s.rx.rdh.toNat s.rx.rdt.toNat len
          (updates r len n) :: s.notes }

def rxFinish (r : RxRun) (s : RxSys) : Except Fault RxSys :=
  let left := leftOf r.size s.rx.rdt r.head
  let threshold := r.size >>> (((s.rx.rctl >>> 8) &&& 3).toNat + 1)
  let cause := if left < threshold then r.cause ||| icrRxdmt0 else r.cause
  .ok { s with
    rx := { s.rx with rxActive := false, rdh := BitVec.ofNat 16 r.head }
    intr := if cause ≠ 0 then icrAssert s.intr cause else s.intr
    thread := .idle
    notes := .advance (rxEntries s.rx) s.rx.rdh.toNat s.rx.rdt.toNat r.head :: s.notes }

def rxCtlOff (rx : Rx) : Rx := { rx with rxLoopback := false, rdba := 0, rxdesc := none }

def rxCtl (val : BitVec 32) (s : RxSys) : RxSys :=
  let on := decide (val &&& rctlEn = rctlEn)
  let rx := { s.rx with rctl := val &&& ~~~0xf9204c01 }
  if on = rx.rxEnabled then { s with rx := rx }
  else if on then
    let rx := { rx with rxLoopback := decide (rx.rctl &&& rctlLbmTcvr ≠ 0) }
    { s with rx := { rxUpdateRdba map rx with rxEnabled := true } }
  else { s with rx := { rx with rxEnabled := false }, waiters := .ctl :: s.waiters }

def resetRegisters (s : RxSys) : RxSys :=
  { s with
    rx := { s.rx with rctl := 0, rdlen := 0, rdh := 0, rdt := 0 }
    intr := intrReset s.intr }

def devctl (val : BitVec 32) (s : RxSys) : RxSys :=
  let s := { s with rx := { s.rx with ctrl := val &&& ~~~ctrlRst } }
  if val &&& ctrlRst ≠ 0 then
    { s with rx := { s.rx with rxEnabled := false }, waiters := .resetRx :: s.waiters }
  else s

def RxSys.put (s : RxSys) (rx : Rx) : Except Fault RxSys := .ok { s with rx := rx }

def writeRdbal (value : BitVec 32) (rx : Rx) : Rx :=
  if rx.rxEnabled then rxUpdateRdba map { rx with rdbal := value &&& ~~~0xf }
  else { rx with rdbal := value &&& ~~~0xf }

def writeVfta (offset value : BitVec 32) (rx : Rx) : Rx :=
  { rx with fvlan := fun i => if i = (offset - regVfta).toNat / 4 then value else rx.fvlan i }

def writeRegister (offset value : BitVec 32) (s : RxSys) : Except Fault RxSys :=
  if offset &&& 3 ≠ 0 then .ok s
  else if offset = regCtrl ∨ offset = regCtrlDup then .ok (devctl value s)
  else if offset = regVet then s.put { s.rx with vet := value &&& ~~~0xffff0000 }
  else if offset = regRctl then .ok (rxCtl map value s)
  else if offset = regRdbal then s.put (writeRdbal map value s.rx)
  else if offset = regRdbah then
    if s.rx.rxEnabled then .error .assertion else s.put { s.rx with rdbah := value }
  else if offset = regRdlen then
    if s.rx.rxEnabled then .error .assertion
    else s.put { s.rx with rdlen := value &&& ~~~0xfff0007f }
  else if offset = regRdh then s.put { s.rx with rdh := value.setWidth 16 }
  else if offset = regRdt then s.put { s.rx with rdt := value.setWidth 16 }
  else if offset = regRsrpd then s.put { s.rx with rsrpd := value &&& ~~~0xfffff000 }
  else if regVfta ≤ offset ∧ offset ≤ regVfta + 127 * 4 then s.put (writeVfta offset value s.rx)
  else .ok { s with intr := intrWrite s.intr offset value }

def wake (k : Nat) (s : RxSys) : RxSys :=
  match s.waiters[k]? with
  | some .ctl =>
      if s.rx.rxActive then s
      else { s with rx := rxCtlOff s.rx, waiters := s.waiters.eraseIdx k }
  | some .resetRx =>
      if s.rx.rxActive then s else { s with waiters := s.waiters.set k .resetTx }
  | some .resetTx => { resetRegisters s with waiters := s.waiters.eraseIdx k }
  | none => s

inductive RxEvent where
  | write (offset value : BitVec 32)
  | wake (k : Nat)
  | callback
  | receive (p : Packet)
  | fill
  | finish

def rxStep (s : RxSys) : RxEvent → Except Fault RxSys
  | .write offset value => writeRegister map offset value s
  | .wake k => .ok (wake k s)
  | .callback =>
      match s.thread with
      | .idle => rxBegin s
      | _ => .ok s
  | .receive p =>
      match s.thread with
      | .ready r => rxReceive p r s
      | _ => .ok s
  | .fill =>
      match s.thread with
      | .received r len n => rxFill r len n s
      | _ => .ok s
  | .finish =>
      match s.thread with
      | .done r => rxFinish r s
      | _ => .ok s

def rxInit : RxSys where
  rx := ⟨0, 0, fun _ => 0, 0, 0, 0, 0, 0, 0, 0, 0, none, false, false, false⟩
  intr := intrInit
  thread := .idle
  waiters := []
  notes := []
end E82545
