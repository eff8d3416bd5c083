import Bhyve.Ahci.Fis
import Bhyve.Lib.ByteMemory

/-!
The command list, the command tables and the scatter lists in the memory of the guest, and the
block requests that are made from them. The guest may have written anything there.
-/
namespace Ahci
open BitMasks ByteMemory

def ahciClSize : Nat := 32
def dbcMask : BitVec 32 := 0x3fffff
def blockifIovMax : Nat := 128

/-- The memory of the guest: where paddr_guest2host has a range of it, and its bytes. The stack is
    what a buffer holds of old in the place where nothing is read into it. -/
structure Guest where
  host : BitVec 64 → Nat → Option Nat
  byte : Mem
  stack : Nat → BitVec 8

structure Disk where
  sectsz : BitVec 32
  takes : Bool

structure Command where
  slot : Nat
  table : Nat
  cfis : Cfis
  prdtl : Nat

structure PrdtEntry where
  dba : BitVec 64
  dbc : BitVec 32

def Command.acmd (c : Command) (i : Nat) : BitVec 8 := c.cfis (0x40 + i)

variable (g : Guest)

def readCfis (table : Nat) : Cfis := fun i => g.byte (table + i)

def cmdHdr (cmdLst slot : Nat) : Nat × BitVec 64 :=
  ((read16 g.byte (cmdLst + slot * ahciClSize + 2)).toNat,
    read64 g.byte (cmdLst + slot * ahciClSize + 8))

def prdtEntries (table prdtl : Nat) : List PrdtEntry :=
  (List.range prdtl).map fun i =>
    ⟨read64 g.byte (table + 0x80 + i * 16), read32 g.byte (table + 0x80 + i * 16 + 12)⟩

def PrdtEntry.size (e : PrdtEntry) : BitVec 32 := (e.dbc &&& dbcMask) + 1

structure IovFill where
  iov : List (Option Nat × BitVec 32)
  todo : BitVec 32
  left : BitVec 32
  skip : BitVec 32
  rest : List PrdtEntry

def fillIov (g : Guest) : List PrdtEntry → IovFill → IovFill
  | [], f => { f with rest := [] }
  | e :: rest, f =>
      if f.iov.length < blockifIovMax ∧ (0#32).slt f.left then
        if e.size ≤ f.skip then fillIov g rest { f with skip := f.skip - e.size }
        else
          let dbcsz := e.size - f.skip
          let dbcsz := if f.left < dbcsz then f.left else dbcsz
          fillIov g rest
            { f with
              iov := f.iov ++ [(g.host (e.dba + f.skip.setWidth 64) dbcsz.toNat, dbcsz)]
              todo := f.todo + dbcsz
              left := f.left - dbcsz
              skip := 0 }
      else { f with rest := e :: rest }

/-- The last elements of the iov, which come first here, without some bytes at the end. -/
def cutIov : List (Option Nat × BitVec 32) → BitVec 32 → List (Option Nat × BitVec 32)
  | [], _ => []
  | last :: before, extra =>
      if (0#32).slt extra then
        if extra < last.2 then (last.1, last.2 - extra) :: before else cutIov before (extra - last.2)
      else last :: before

def ahciBuildIov (disk : Disk) (aior : AhciIoreq) (entries : List PrdtEntry) :
    Except Fault AhciIoreq :=
  let f := fillIov g entries ⟨[], 0, aior.len - aior.done, aior.done, []⟩
  let request := fun iov (todo : BitVec 32) =>
    { aior with
      brIov := iov
      brResid := todo.setWidth 64
      done := aior.done + todo
      more := decide (aior.done + todo < aior.len) && !f.rest.isEmpty }
  if f.iov.length = blockifIovMax then
    let extra := f.todo.srem disk.sectsz
    let todo := f.todo - extra
    if (0#32).slt todo then .ok (request (cutIov f.iov.reverse extra).reverse todo)
    else .error .assertion
  else .ok (request f.iov f.todo)

def pullIoreq (p : AhciPort) : Except Fault (Nat × AhciPort) :=
  match p.iofhd with
  | [] => .error .noIoreq
  | k :: rest => .ok (k, { p with iofhd := rest })

def markBusy (p : AhciPort) (k : Nat) (aior : AhciIoreq) : AhciPort :=
  { p with
    ioreq := Function.update p.ioreq k aior
    pending := add p.pending aior.slot
    iobhd := k :: p.iobhd }

def blockifRequest (disk : Disk) (v : PortView) (k : Nat) : Except Fault PortView :=
  if disk.takes then .ok ⟨v.hba, { v.port with queued := k :: v.port.queued }⟩
  else .error .assertion

def writePrdtLoop (g : Guest) : List PrdtEntry → Nat → Except Fault Unit
  | [], _ => .ok ()
  | e :: rest, len =>
      if len = 0 then .ok ()
      else
        match g.host e.dba e.size.toNat with
        | none => .error .nullPointer
        | some _ => writePrdtLoop g rest (len - min len e.size.toNat)

def writePrdt (c : Command) (size : Nat) : Except Fault Unit :=
  writePrdtLoop g (prdtEntries g c.table c.prdtl) size

def readPrdtLoop (g : Guest) : List PrdtEntry → Nat → Except Fault (List (BitVec 8))
  | [], _ => .ok []
  | e :: rest, len =>
      if len = 0 then .ok []
      else
        match g.host e.dba e.size.toNat with
        | none => .error .nullPointer
        | some a =>
            let sublen := min len e.size.toNat
            match readPrdtLoop g rest (len - sublen) with
            | .error fault => .error fault
            | .ok bytes => .ok ((List.range sublen).map (fun i => g.byte (a + i)) ++ bytes)

/-- The bytes of a buffer of 512 on the stack. Beyond what is read it has what was there. -/
def readPrdt (c : Command) : Except Fault (Nat → BitVec 8) :=
  match readPrdtLoop g (prdtEntries g c.table c.prdtl) 512 with
  | .error fault => .error fault
  | .ok bytes => .ok fun i => if i < bytes.length then bytes.getD i 0 else g.stack i

end Ahci
