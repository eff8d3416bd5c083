import Bhyve.Block.Proc

/-!
pci_vtnet_rx of pci_virtio_net.c. The packets of the backend lie in a list, and a call of the
backend reads the first of them, as far as the vectors have room. The bytes written to the guest and
the entries written to the ring of used chains are kept in order. One turn of the outer loop is a
step. paddr_guest2host maps every address of a descriptor; notifications are left out.
-/
namespace Vtnet
open Virtio BlockProc

def vtnetMaxsegs : Nat := 256

structure Iovec where
  base : Nat
  len : Nat
  deriving DecidableEq

structure Chain where
  idx : BitVec 16
  iov : List Iovec
  deriving DecidableEq

inductive Stop where
  | asserted
  | outside
  deriving DecidableEq

structure Softc where
  vhdrlen : Nat
  beVhdrlen : Nat
  rxMerge : Bool
  descs : Descriptors
  hvCaps : BitVec 64
  vq : VqueueInfo
  packets : List (List (BitVec 8))
  writes : List (Nat × BitVec 8)
  used : List VirtioUsed
  stopped : Bool

def Softc.prepend (s : Softc) : Nat := s.vhdrlen - s.beVhdrlen

def iovOf (v : VirtioDesc) : Iovec := ⟨v.addr.toNat, v.len.toNat⟩

def countIov (iov : List Iovec) : Nat := (iov.map Iovec.len).sum

def placesOf (iov : List Iovec) : List Nat := iov.flatMap fun v => span v.base v.len

def iovTrimHdr (hlen : Nat) : List Iovec → Option (List Iovec)
  | [] => none
  | v :: rest =>
      if v.len < hlen then none
      else if v.len - hlen = 0 then if rest.isEmpty then none else some rest
      else some (⟨v.base + hlen, v.len - hlen⟩ :: rest)

def riov (chains : List Chain) : List Iovec := chains.flatMap Chain.iov

def infoLen (c : Chain) : BitVec 32 := BitVec.ofNat 32 (countIov c.iov)

def riovBytes (chains : List Chain) : BitVec 32 := chains.foldl (fun n c => n + infoLen c) 0

inductive Gathered where
  | dry (vq : VqueueInfo) (chains : List Chain)
  | full (vq : VqueueInfo) (chains : List Chain)

/-- The do loop that collects chains; each pass adds a vector at least. -/
def gather (s : Softc) (plen : Nat) : Nat → VqueueInfo → List Chain → Except Stop Gathered
  | 0, _, _ => .error .outside
  | fuel + 1, vq, chains =>
      let got := vqGetchain s.descs s.hvCaps (vtnetMaxsegs - (riov chains).length) vq
      if got.ret = 0 then .ok (.dry got.vq chains)
      else if got.ret < 1 ∨ (vtnetMaxsegs : Int) < (riov chains).length + got.ret then
        .error .asserted
      else
        match got.pidx with
        | none => .error .outside
        | some idx =>
            let chains := chains ++ [⟨idx, got.iov.map iovOf⟩]
            if s.rxMerge = false then .ok (.full got.vq chains)
            else if (riovBytes chains).toNat < plen ∧ (riov chains).length < vtnetMaxsegs then
              gather s plen fuel got.vq chains
            else .ok (.full got.vq chains)

def usedEntry (idx : BitVec 16) (iolen : BitVec 32) : VirtioUsed := ⟨idx.setWidth 32, iolen⟩

/-- The entries of the chains that ulen bytes reach, and the chains that they do not reach. -/
def release : List Chain → BitVec 32 → VqueueInfo →
    Except Stop (VqueueInfo × List VirtioUsed × List Chain)
  | [], _, _ => .error .outside
  | c :: rest, ulen, vq =>
      let iolen := if ulen < infoLen c then ulen else infoLen c
      let vq := vqRelchainPrepare vq c.idx iolen
      if ulen - iolen = 0 then .ok (vq, [usedEntry c.idx iolen], rest)
      else
        match release rest (ulen - iolen) vq with
        | .error stop => .error stop
        | .ok (vq, entries, left) => .ok (vq, usedEntry c.idx iolen :: entries, left)

def publish (s : Softc) (chains : List Chain) (first : Chain) (hdr plen : Nat) :
    Except Stop Softc :=
  let ulen := BitVec.ofNat 32 plen
  if s.rxMerge = false then
    .ok { s with
      vq := vqRelchainPublish (vqRelchainPrepare s.vq first.idx ulen)
      used := s.used ++ [usedEntry first.idx ulen] }
  else
    match release chains ulen s.vq with
    | .error stop => .error stop
    | .ok (vq, entries, left) =>
        let vrhBufs := BitVec.ofNat 16 entries.length
        if left.isEmpty then
          .ok { s with
            vq := vqRelchainPublish vq
            used := s.used ++ entries
            writes := s.writes ++
              [(hdr + 10, vrhBufs.extractLsb' 0 8), (hdr + 11, vrhBufs.extractLsb' 8 8)] }
        else .error .asserted

def receive (s : Softc) (vq : VqueueInfo) (chains : List Chain) (p : List (BitVec 8))
    (rest : List (List (BitVec 8))) : Except Stop Softc :=
  match chains.head?, (riov chains).head? with
  | some first, some hdr =>
      match if 0 < s.prepend then iovTrimHdr s.prepend (riov chains) else some (riov chains) with
      | none =>
          .ok { s with
            vq := vqRetchains (vqRelchainPublish (vqRelchainPrepare vq first.idx 0))
              (BitVec.ofNat 16 (chains.length - 1))
            used := s.used ++ [usedEntry first.idx 0] }
      | some bufs =>
          let s := { s with
            vq := vq
            packets := rest
            writes := s.writes ++ (span hdr.base s.prepend).zip (List.replicate s.prepend 0) ++
              (placesOf bufs).zip p }
          if countIov bufs < p.length then
            .ok { s with vq := vqRetchains vq (BitVec.ofNat 16 chains.length) }
          else publish s chains first hdr.base (p.length + s.prepend)
  | _, _ => .error .outside

/-- A turn of the loop. A packet without a byte ends it, as the backend's length is then 0. -/
def turn (s : Softc) : Except Stop Softc :=
  match s.packets with
  | [] => .ok { s with stopped := true }
  | p :: rest =>
      if p.isEmpty then .ok { s with stopped := true }
      else
        match gather s (p.length + s.prepend) (vtnetMaxsegs + 1) s.vq [] with
        | .error stop => .error stop
        | .ok (.dry vq chains) =>
            .ok { s with
              vq := vqRetchains vq (BitVec.ofNat 16 chains.length)
              stopped := true }
        | .ok (.full vq chains) => receive s vq chains p rest

def pciVtnetRx (s : Softc) (_ : Unit) : Except Stop Softc :=
  if s.stopped then .ok s else turn s

end Vtnet
