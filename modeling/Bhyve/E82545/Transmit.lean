import Bhyve.E82545.Receive

/-!
The transmit side of the network adapter: the descriptors of a packet, the writable copy of its
header, checksums, segmentation, and the thread that goes through the ring of the guest.
-/
namespace E82545

inductive TxFault where
  | assertion
  | divideByZero
  | nullPointer
  | outsideRing
  | negativeLength
  | pastIovs
  | tooManyIovs
  | outsideHeader
  | hangs
deriving DecidableEq

abbrev Byte := BitVec 8

structure TxDesc where
  addr : BitVec 64
  lower : BitVec 32
  upper : BitVec 32

def txdCmdEop : BitVec 32 := 0x01000000
def txdCmdIfcs : BitVec 32 := 0x02000000
def txdCmdIc : BitVec 32 := 0x04000000
def txdCmdTse : BitVec 32 := 0x04000000
def txdCmdRs : BitVec 32 := 0x08000000
def txdCmdDext : BitVec 32 := 0x20000000
def txdCmdVle : BitVec 32 := 0x40000000
def txdCmdTcp : BitVec 32 := 0x01000000
def txdCmdIp : BitVec 32 := 0x02000000
def txdMask : BitVec 32 := txdCmdDext ||| 0x00f00000
def txdTypC : BitVec 32 := txdCmdDext
def txdTypD : BitVec 32 := txdCmdDext ||| 0x00100000
def ctrlVme : BitVec 32 := 0x40000000
def maxTxsegs : Nat := 64
def etherAddrLen : Nat := 6
def etherVlanEncapLen : Nat := 4

def txdescType (lower : BitVec 32) : BitVec 32 :=
  if lower &&& txdCmdDext ≠ 0 then lower &&& txdMask else 0

def TxDesc.type (d : TxDesc) : BitVec 32 := txdescType d.lower
def TxDesc.eop (d : TxDesc) : Bool := decide (d.lower &&& txdCmdEop ≠ 0)

def TxDesc.len (d : TxDesc) : Nat :=
  if d.type = 0 then (d.lower &&& 0xffff).toNat else (d.lower &&& 0xfffff).toNat

def TxDesc.strips (d : TxDesc) : Bool := d.eop && decide (d.lower &&& txdCmdIfcs = 0)

def TxDesc.css (d : TxDesc) : Byte := (d.upper >>> 8).setWidth 8
def TxDesc.cso (d : TxDesc) : Byte := (d.lower >>> 16).setWidth 8
def TxDesc.ixsm (d : TxDesc) : Bool := d.upper.getLsbD 8
def TxDesc.txsm (d : TxDesc) : Bool := d.upper.getLsbD 9
def TxDesc.special (d : TxDesc) : BitVec 16 := (d.upper >>> 16).setWidth 16

def TxDesc.ipcss (d : TxDesc) : Byte := d.addr.setWidth 8
def TxDesc.ipcso (d : TxDesc) : Byte := (d.addr >>> 8).setWidth 8
def TxDesc.ipcse (d : TxDesc) : BitVec 16 := (d.addr >>> 16).setWidth 16
def TxDesc.tucss (d : TxDesc) : Byte := (d.addr >>> 32).setWidth 8
def TxDesc.tucso (d : TxDesc) : Byte := (d.addr >>> 40).setWidth 8
def TxDesc.tucse (d : TxDesc) : BitVec 16 := (d.addr >>> 48).setWidth 16
def TxDesc.isTcp (d : TxDesc) : Bool := decide (d.lower &&& txdCmdTcp ≠ 0)
def TxDesc.isIp (d : TxDesc) : Bool := decide (d.lower &&& txdCmdIp ≠ 0)
def TxDesc.paylen (d : TxDesc) : Nat := (d.lower &&& 0x000fffff).toNat
def TxDesc.hdrLen (d : TxDesc) : Nat := ((d.upper >>> 8).setWidth 8).toNat
def TxDesc.mss (d : TxDesc) : Nat := ((d.upper >>> 16).setWidth 16).toNat

structure GuestBytes where
  read : BitVec 64 → Nat → Option (List Byte)
  length : ∀ addr n bytes, read addr n = some bytes → bytes.length = n

structure Iov where
  base : Option (List Byte)
  len : Nat

def Iov.take (iov : Iov) (n : Nat) : Iov := ⟨iov.base.map (List.take n), n⟩
def Iov.drop (iov : Iov) (n : Nat) : Iov := ⟨iov.base.map (List.drop n), iov.len - n⟩

structure Gather where
  iovs : List Iov
  iovcnt : Nat
  ntype : BitVec 32
  css : Byte

def TxDesc.cut (d : TxDesc) : Nat := if d.strips then d.len - 2 else d.len

def addDesc (mem : GuestBytes) (d : TxDesc) (g : Gather) : Except TxFault Gather :=
  if d.len = 0 then .ok g
  else if maxTxsegs ≤ g.iovcnt then .ok { g with iovcnt := g.iovcnt + 1 }
  else if d.strips ∧ d.len < 2 then .error .negativeLength
  else .ok { g with
    iovs := g.iovs ++ [⟨mem.read d.addr d.cut, d.cut⟩]
    iovcnt := g.iovcnt + 1 }

def firstDesc (d : TxDesc) : Gather :=
  ⟨[], 0, if d.type = txdTypD then txdTypD else 0, if d.type = 0 then d.css else 0⟩

inductive Gathered where
  | incomplete (head : Nat)
  | context (d : TxDesc)
  | packet (head desc : Nat) (last : TxDesc) (g : Gather)

def gatherMore (mem : GuestBytes) (ring : Nat → TxDesc) (entries size tail : Nat) :
    Nat → Nat → Nat → Gather → Except TxFault Gathered
  | 0, head, _, _ => if head = tail then .ok (.incomplete head) else .error .hangs
  | fuel + 1, head, desc, g =>
      if head = tail then .ok (.incomplete head)
      else if entries ≤ head then .error .outsideRing
      else if (ring head).type ≠ g.ntype then .error .assertion
      else
        match addDesc mem (ring head) g with
        | .error fault => .error fault
        | .ok g =>
            if (ring head).eop then .ok (.packet head desc (ring head) g)
            else gatherMore mem ring entries size tail fuel ((head + 1) % size) (desc + 1) g

def gather (mem : GuestBytes) (ring : Nat → TxDesc) (entries size head tail : Nat) :
    Except TxFault Gathered :=
  if head = tail then .ok (.incomplete head)
  else if entries ≤ head then .error .outsideRing
  else if (ring head).type = txdTypC then .ok (.context (ring head))
  else
    match addDesc mem (ring head) (firstDesc (ring head)) with
    | .error fault => .error fault
    | .ok g =>
        if (ring head).eop then .ok (.packet head 0 (ring head) g)
        else if size = 0 then .error .divideByZero
        else gatherMore mem ring entries size tail (size - 1) ((head + 1) % size) 1 g

structure CkInfo where
  valid : Bool
  start : Byte
  off : Byte
  len : BitVec 16

def noCk : CkInfo := ⟨false, 0, 0, 0⟩

def carry (sum : BitVec 32) : BitVec 16 :=
  let low : BitVec 32 := sum &&& 0xffff
  let folded := low + sum >>> 16
  (if folded > 0xffff then folded - 0xffff else folded).setWidth 16

def bufSum : List Byte → BitVec 32
  | lo :: hi :: rest => (hi ++ lo).setWidth 32 + bufSum rest
  | [b] => b.setWidth 32
  | [] => 0

def bufChecksum (buf : List Byte) : BitVec 16 := carry (bufSum buf)

def skipIovs : Nat → List Iov → Nat × List Iov
  | off, [] => (off, [])
  | off, iov :: rest =>
      if iov.len ≤ off ∧ 0 < off then skipIovs (off - iov.len) rest else (off, iov :: rest)

def sumIovs : List Iov → Nat → Nat → Bool → Except TxFault (BitVec 32)
  | [], _, _, _ => .ok 0
  | iov :: rest, off, len, odd =>
      if len = 0 then .ok 0
      else
        let now := min len (iov.len - off)
        match iov.base, sumIovs rest 0 (len - now) (odd ^^ decide (now % 2 = 1)) with
        | _, .error fault => .error fault
        | none, .ok sum => if now = 0 then .ok sum else .error .nullPointer
        | some bytes, .ok sum =>
            let s := (bufChecksum ((bytes.drop off).take now)).setWidth 32
            .ok ((if odd then s <<< 8 else s) + sum)

def iovChecksum (iovs : List Iov) (off len : Nat) : Except TxFault (BitVec 16) :=
  let (off, iovs) := skipIovs off iovs
  match sumIovs iovs off len false with
  | .error fault => .error fault
  | .ok sum => .ok (carry sum)

def readBytes (hdr : List Byte) (off n : Nat) : Except TxFault (List Byte) :=
  if off + n ≤ hdr.length then .ok ((hdr.drop off).take n) else .error .outsideHeader

def writeBytes (hdr : List Byte) (off : Nat) (bytes : List Byte) : Except TxFault (List Byte) :=
  if off + bytes.length ≤ hdr.length then
    .ok (hdr.take off ++ bytes ++ hdr.drop (off + bytes.length))
  else .error .outsideHeader

def host16 (x : BitVec 16) : List Byte := [x.setWidth 8, (x >>> 8).setWidth 8]
def host32 (x : BitVec 32) : List Byte :=
  [x.setWidth 8, (x >>> 8).setWidth 8, (x >>> 16).setWidth 8, (x >>> 24).setWidth 8]

def net16 (x : BitVec 16) : List Byte := (host16 x).reverse
def net32 (x : BitVec 32) : List Byte := (host32 x).reverse

def ofHost16 : List Byte → BitVec 16
  | [lo, hi] => hi ++ lo
  | _ => 0

def ofNet : List Byte → Nat := List.foldl (fun n b => 256 * n + b.toNat) 0

def ckLen (ck : CkInfo) : Nat :=
  if ck.len = 0 then 0x7fffffff else ck.len.toNat + 1 - ck.start.toNat

def transmitChecksum (hdr : List Byte) (rest : List Iov) (ck : CkInfo) :
    Except TxFault (List Byte) :=
  match iovChecksum (⟨some hdr, hdr.length⟩ :: rest) ck.start.toNat (ckLen ck) with
  | .error fault => .error fault
  | .ok cksum => writeBytes hdr ck.off.toNat (host16 (~~~cksum))

def checksumIf (hdr : List Byte) (rest : List Iov) (ck : CkInfo) : Except TxFault (List Byte) :=
  if ck.valid then transmitChecksum hdr rest ck else .ok hdr

structure Request where
  tso : Bool
  ck0 : CkInfo
  ck1 : CkInfo

def request (ctx last : TxDesc) (css : Byte) : Request :=
  if last.type = 0 then
    ⟨false, if last.lower &&& txdCmdIc ≠ 0 then ⟨true, css, last.cso, 0⟩ else noCk, noCk⟩
  else
    let tso := decide (last.lower &&& txdCmdTse ≠ 0)
    ⟨tso, if last.ixsm || tso then ⟨last.ixsm, ctx.ipcss, ctx.ipcso, ctx.ipcse⟩ else noCk,
      if last.txsm || tso then ⟨last.txsm, ctx.tucss, ctx.tucso, ctx.tucse⟩ else noCk⟩

def plainHdrlen (vlan : Bool) (r : Request) (first : Nat) : Nat :=
  let hdrlen := if vlan then 2 * etherAddrLen else 0
  let hdrlen := if r.ck0.valid then max hdrlen (r.ck0.off.toNat + 2) else hdrlen
  let hdrlen := if r.ck1.valid then max hdrlen (r.ck1.off.toNat + 2) else hdrlen
  if hdrlen ≠ 0 ∧ first > hdrlen ∧ first < hdrlen + 100 then first else hdrlen

/-- Whether the length of the header that software gives covers what segmentation changes. -/
def tsoHdrlenFits (vlan : Bool) (r : Request) (ctx : TxDesc) : Bool :=
  decide (ctx.hdrLen ≤ 240) && !(vlan && decide (ctx.hdrLen < 2 * etherAddrLen)) &&
    decide (r.ck0.start.toNat + 6 ≤ ctx.hdrLen) && decide (r.ck0.off.toNat + 2 ≤ ctx.hdrLen) &&
    if ctx.isTcp then
      decide (r.ck1.start.toNat + 14 ≤ ctx.hdrLen) &&
        !(r.ck1.valid && decide (ctx.hdrLen < r.ck1.off.toNat + 2))
    else decide (r.ck1.start.toNat + 8 ≤ ctx.hdrLen)

def hdrlenOf (vlan : Bool) (r : Request) (ctx : TxDesc) (first : Nat) : Option Nat :=
  if r.tso then if tsoHdrlenFits vlan r ctx then some ctx.hdrLen else none
  else some (plainHdrlen vlan r first)

def copyHdr : Nat → List Iov → Except TxFault (List Byte × List Iov)
  | left, [] => if left = 0 then .ok ([], []) else .error .pastIovs
  | left, iov :: rest =>
      if left = 0 then .ok ([], iov :: rest)
      else if left < iov.len then
        match iov.base with
        | none => .error .nullPointer
        | some bytes => .ok (bytes.take left, iov.drop left :: rest)
      else
        match iov.base, copyHdr (left - iov.len) rest with
        | _, .error fault => .error fault
        | none, .ok (hdr, iovs) => if iov.len = 0 then .ok (hdr, iovs) else .error .nullPointer
        | some bytes, .ok (hdr, iovs) => .ok (bytes.take iov.len ++ hdr, iovs)

def insertVlan (vet special : BitVec 16) (hdr : List Byte) : List Byte :=
  hdr.take (2 * etherAddrLen) ++ (net16 vet ++ net16 special) ++ hdr.drop (2 * etherAddrLen)

def shiftCk (ck : CkInfo) : CkInfo :=
  { ck with
    start := ck.start + BitVec.ofNat 8 etherVlanEncapLen
    off := ck.off + BitVec.ofNat 8 etherVlanEncapLen
    len := if ck.len = 0 then 0 else ck.len + BitVec.ofNat 16 etherVlanEncapLen }

structure Ready where
  hdr : List Byte
  rest : List Iov
  ck0 : CkInfo
  ck1 : CkInfo

def ready (vlan : Bool) (vet special : BitVec 16) (r : Request) (hdr : List Byte)
    (rest : List Iov) : Ready :=
  if vlan then ⟨insertVlan vet special hdr, rest, shiftCk r.ck0, shiftCk r.ck1⟩
  else ⟨hdr, rest, r.ck0, r.ck1⟩

abbrev Frame := List Iov

def sendPlain (p : Ready) (hdrlen : Nat) : Except TxFault (List Frame) :=
  match checksumIf p.hdr p.rest p.ck0 with
  | .error fault => .error fault
  | .ok hdr =>
      match checksumIf hdr p.rest p.ck1 with
      | .error fault => .error fault
      | .ok hdr =>
          .ok [if hdrlen = 0 then p.rest else ⟨some hdr, hdr.length⟩ :: p.rest]

def takePayload : Nat → List Iov → List Iov × List Iov
  | _, [] => ([], [])
  | nleft, iov :: rest =>
      if nleft = 0 then ([], iov :: rest)
      else
        let nnow := min nleft iov.len
        if nnow = iov.len then
          (iov.take nnow :: (takePayload (nleft - nnow) rest).1, (takePayload (nleft - nnow) rest).2)
        else ([iov.take nnow], iov.drop nnow :: rest)

structure Tso where
  tcp : Bool
  ip : Bool
  mss : Nat
  paylen : Nat
  ipid : Nat
  tcpseq : Nat
  ipcs : List Byte
  tcpcs : BitVec 16
  ck0 : CkInfo
  ck1 : CkInfo

def readIf (used : Bool) (hdr : List Byte) (off n : Nat) : Except TxFault (List Byte) :=
  if used then readBytes hdr off n else .ok []

def tsoOf (ctx : TxDesc) (p : Ready) : Except TxFault Tso := do
  let ipid ← readBytes p.hdr (p.ck0.start.toNat + 4) 2
  let tcpseq ← readIf ctx.isTcp p.hdr (p.ck1.start.toNat + 4) 4
  let ipcs ← readBytes p.hdr p.ck0.off.toNat 2
  let tcpcs ← readIf p.ck1.valid p.hdr p.ck1.off.toNat 2
  return ⟨ctx.isTcp, ctx.isIp, ctx.mss, ctx.paylen, ofNet ipid, ofNet tcpseq, ipcs, ofHost16 tcpcs,
    p.ck0, p.ck1⟩

def updateIp (t : Tso) (seg now : Nat) (hdr : List Byte) : Except TxFault (List Byte) :=
  let start := t.ck0.start.toNat
  if t.ip then do
    let hdr' ← writeBytes hdr (start + 2) (net16 (BitVec.ofNat 16 (hdr.length - start + now)))
    writeBytes hdr' (start + 4) (net16 (BitVec.ofNat 16 (t.ipid + seg)))
  else
    writeBytes hdr (start + 4)
      (net16 (BitVec.ofInt 16 ((hdr.length : Int) - start - 40 + now)))

def thFinPush : Byte := 0x09

def clearFlags (hdr : List Byte) (off : Nat) : Except TxFault (List Byte) := do
  let flags ← readBytes hdr off 1
  writeBytes hdr off (flags.map fun b => b &&& ~~~thFinPush)

def updateTcp (t : Tso) (left now : Nat) (hdr : List Byte) : Except TxFault (List Byte) :=
  let start := t.ck1.start.toNat
  if t.tcp then do
    let hdr' ← writeBytes hdr (start + 4) (net32 (BitVec.ofNat 32 (t.tcpseq + t.paylen - left)))
    if now < left then clearFlags hdr' (start + 13) else .ok hdr'
  else writeBytes hdr (start + 4) (host32 (BitVec.ofNat 32 (hdr.length - start + now)))

def pseudoSum (t : Tso) (hdrlen now : Nat) : BitVec 16 :=
  carry (t.tcpcs.setWidth 32 +
    (ofHost16 (net16 (BitVec.ofNat 16 (hdrlen - t.ck1.start.toNat + now)))).setWidth 32)

def seedChecksum (ck : CkInfo) (seed : List Byte) (pieces : List Iov) (hdr : List Byte) :
    Except TxFault (List Byte) :=
  if ck.valid then do
    let hdr' ← writeBytes hdr ck.off.toNat seed
    transmitChecksum hdr' pieces ck
  else .ok hdr

def segmentHeader (t : Tso) (seg left now : Nat) (pieces : List Iov) (hdr : List Byte) :
    Except TxFault (List Byte) := do
  let hdr ← updateIp t seg now hdr
  let hdr ← updateTcp t left now hdr
  let hdr ← seedChecksum t.ck0 t.ipcs pieces hdr
  seedChecksum t.ck1 (host16 (pseudoSum t hdr.length now)) pieces hdr

def sendSegments (t : Tso) : Nat → Nat → Nat → List Byte → List Iov → Except TxFault (List Frame)
  | fuel, seg, left, hdr, pay =>
      if left = 0 then .ok []
      else
        match fuel with
        | 0 => .error .hangs
        | fuel + 1 =>
            let now := min left t.mss
            let pieces := (takePayload now pay).1
            if maxTxsegs + 2 < 1 + pieces.length then .error .tooManyIovs
            else do
              let hdr ← segmentHeader t seg left now pieces hdr
              let frames ← sendSegments t fuel (seg + 1) (left - now) hdr (takePayload now pay).2
              return (⟨some hdr, hdr.length⟩ :: pieces) :: frames

def sendTso (ctx : TxDesc) (p : Ready) : Except TxFault (List Frame) := do
  let t ← tsoOf ctx p
  sendSegments t t.paylen 0 t.paylen p.hdr p.rest
end E82545
