import Bhyve.Lib.CycleRing
import Bhyve.Lib.StepRuns
import Mathlib.Data.BitVec

/-!
The event ring of the controller: insert_event, the registers of its interrupter, and a driver that
consumes events by their cycle bit and moves the dequeue pointer on.
-/
namespace Xhci

structure Trb where
  qwTrb0 : BitVec 64
  dwTrb2 : BitVec 32
  dwTrb3 : BitVec 32
deriving DecidableEq

structure EventRingSeg where
  tablePtr : BitVec 64
  tableSize : BitVec 32

def trb3CycleBit : BitVec 32 := 1
def trbErrorSuccess : Nat := 0x01
def trbErrorEvRingFull : Nat := 0x15
def trbEventHostCtrl : Nat := 0x25
def imanIntrPend : BitVec 32 := 1
def imanIntrEna : BitVec 32 := 2
def erdpLoBusy : BitVec 64 := 8

def trb2ErrorSet (x : Nat) : BitVec 32 := BitVec.ofNat 32 (x % 0x100) <<< 24
def trb3TypeSet (x : Nat) : BitVec 32 := BitVec.ofNat 32 (x % 0x40) <<< 10

structure Guest where
  seg : BitVec 64 → EventRingSeg
  trbs : BitVec 64 → Int → Trb

structure Rtsregs where
  iman : BitVec 32
  imod : BitVec 32
  erstsz : BitVec 32
  erstba : BitVec 64
  erdp : BitVec 64
  seg : EventRingSeg
  erst : Int → Trb
  erEnqIdx : BitVec 32
  erEventsCnt : BitVec 32
  eventPcs : BitVec 32

def reset (rts : Rtsregs) : Rtsregs := { rts with erEnqIdx := 0, erEventsCnt := 0, eventPcs := 1 }

def assertInterrupt (doIntr : Bool) (rts : Rtsregs) : Rtsregs :=
  if doIntr then
    { rts with erdp := rts.erdp ||| erdpLoBusy, iman := rts.iman ||| imanIntrPend }
  else rts

def enqueue (trb : Trb) (rts : Rtsregs) : Rtsregs :=
  { rts with
    erst := Function.update rts.erst rts.erEnqIdx.toInt trb
    erEnqIdx := (rts.erEnqIdx + 1) % rts.seg.tableSize }

def turnPcs (rts : Rtsregs) : Rtsregs :=
  if rts.erEnqIdx = 0 then { rts with eventPcs := rts.eventPcs ^^^ 1 } else rts

def withCycle (trb : Trb) (pcs : BitVec 32) : Trb :=
  { trb with dwTrb3 := (trb.dwTrb3 &&& ~~~trb3CycleBit) ||| pcs }

def ringFullEvent (rts : Rtsregs) : Trb :=
  ⟨0, trb2ErrorSet trbErrorEvRingFull, trb3TypeSet trbEventHostCtrl ||| rts.eventPcs⟩

def putEvent (evtrb : Trb) (rts : Rtsregs) : Rtsregs :=
  turnPcs (enqueue (withCycle evtrb rts.eventPcs) rts)

def countEvent (rts : Rtsregs) : Rtsregs := { rts with erEventsCnt := rts.erEventsCnt + 1 }

def insertEvent (evtrb : Trb) (doIntr : Bool) (rts : Rtsregs) : Nat × Rtsregs :=
  if rts.erEventsCnt ≥ rts.seg.tableSize then (trbErrorEvRingFull, assertInterrupt doIntr rts)
  else if rts.erEventsCnt = rts.seg.tableSize - 1 then
    if (rts.erst rts.erEnqIdx.toInt).dwTrb3 &&& 1 = rts.eventPcs &&& 1 then
      (trbErrorEvRingFull,
        assertInterrupt true (enqueue (ringFullEvent rts) (countEvent rts)))
    else (trbErrorSuccess, assertInterrupt doIntr (putEvent evtrb rts))
  else (trbErrorSuccess, assertInterrupt doIntr (putEvent evtrb (countEvent rts)))

def mask64Hi (x : BitVec 64) : BitVec 64 := x &&& ~~~0xffffffff
def mask64Lo (x : BitVec 64) : BitVec 64 := x &&& 0xffffffff

def eventsLeft (rts : Rtsregs) : BitVec 32 :=
  let erdpI := (((rts.erdp &&& ~~~0xf) - rts.seg.tablePtr) / 16).setWidth 32
  if erdpI ≤ rts.erEnqIdx then rts.erEnqIdx - erdpI
  else rts.seg.tableSize - (erdpI - rts.erEnqIdx)

def writeErstbaHi (g : Guest) (value : BitVec 64) (rts : Rtsregs) : Rtsregs :=
  let erstba := value <<< 32 ||| mask64Lo rts.erstba
  let seg := g.seg (erstba &&& ~~~0x3f)
  { rts with
    erstba := erstba
    seg := seg
    erst := g.trbs (seg.tablePtr &&& ~~~0x3f)
    erEnqIdx := 0
    erEventsCnt := 0 }

def writeErdpLo (value : BitVec 64) (rts : Rtsregs) : Rtsregs :=
  let erdp := mask64Hi rts.erdp ||| (rts.erdp &&& erdpLoBusy) ||| (value &&& ~~~0xf)
  if value &&& erdpLoBusy ≠ 0 then
    { rts with erdp := erdp &&& ~~~erdpLoBusy, iman := rts.iman &&& ~~~imanIntrPend }
  else { rts with erdp := erdp }

def writeErdpHi (value : BitVec 64) (rts : Rtsregs) : Rtsregs :=
  let rts := { rts with erdp := value <<< 32 ||| mask64Lo rts.erdp }
  if rts.erEventsCnt > 0 then { rts with erEventsCnt := eventsLeft rts } else rts

def rtsregsWrite (g : Guest) (offset : Nat) (value : BitVec 64) (rts : Rtsregs) : Rtsregs :=
  if offset = 0x00 then
    let iman :=
      if value &&& 1 ≠ 0 then rts.iman &&& ~~~imanIntrPend else rts.iman
    { rts with iman := (value.setWidth 32 &&& imanIntrEna) ||| (iman &&& imanIntrPend) }
  else if offset = 0x04 then { rts with imod := value.setWidth 32 }
  else if offset = 0x08 then { rts with erstsz := value.setWidth 32 &&& 0xffff }
  else if offset = 0x10 then { rts with erstba := mask64Hi rts.erstba ||| (value &&& ~~~0x3f) }
  else if offset = 0x14 then writeErstbaHi g value rts
  else if offset = 0x18 then writeErdpLo value rts
  else if offset = 0x1c then writeErdpHi value rts
  else rts
end Xhci
