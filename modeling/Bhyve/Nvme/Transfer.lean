import Bhyve.Nvme.Controller
import Bhyve.Lib.Placements

/-!
The data of a read or write command: the pages of the guest that its PRP entries name are listed in
a request of the block device, or copied at once where the store is in memory.
-/
namespace Nvme
open Placements

def pageSize : Nat := 4096
def prp2Items : Nat := pageSize / 8
def maxBlockiovs : Nat := 512

abbrev Byte := BitVec 8

structure RwCommand extends Command where
  prp2 : BitVec 64
  cdw12 : BitVec 32

structure Disk where
  mem : Nat → Byte
  store : Nat → Byte
  length : Nat

structure Iov where
  base : Option Nat
  len : Nat

structure BlockReq where
  iov : List Iov
  offset : Nat
  resid : Nat
  prevGpaddr : BitVec 64
  prevSize : Nat

structure Work where
  disk : Disk
  req : BlockReq
  requests : Nat

/-- The store, with what the block device and the system make of each request: whether it is taken,
    and whether the access at an offset fails. -/
structure Store where
  ram : Bool
  sectsz : Nat
  geom : Bool
  rdonly : Bool
  maxphys : Nat
  refuses : Nat → Bool
  fails : Nat → Nat → Bool

def Iov.addresses (v : Iov) : List Nat :=
  match v.base with
  | none => []
  | some base => List.range' base v.len

def Iov.mapped (v : Iov) : Bool := v.base.isSome

def Disk.content (d : Disk) (offset n : Nat) : List Byte :=
  (List.range' offset (min n (d.length - offset))).map d.store

def Disk.write (d : Disk) (offset : Nat) (values : List Byte) : Disk :=
  { d with
    store := place values (List.range' offset values.length) d.store
    length := if values = [] then d.length else max d.length (offset + values.length) }

def spread : List Byte → List Iov → (Nat → Byte) → Except Fault ((Nat → Byte) × List Iov)
  | _, [], _ => .error .outOfBounds
  | data, v :: rest, mem =>
      match v.base with
      | none => .error .nullBase
      | some base =>
          let clen := min data.length v.len
          let mem := place (data.take clen) (List.range' base clen) mem
          if clen < v.len then .ok (mem, ⟨some (base + clen), v.len - clen⟩ :: rest)
          else if data.length = clen then .ok (mem, rest)
          else spread (data.drop clen) rest mem

def collect (mem : Nat → Byte) : Nat → List Iov → Except Fault (List Byte × List Iov)
  | _, [] => .error .outOfBounds
  | len, v :: rest =>
      match v.base with
      | none => .error .nullBase
      | some base =>
          let clen := min len v.len
          let data := (List.range' base clen).map mem
          if clen < v.len then .ok (data, ⟨some (base + clen), v.len - clen⟩ :: rest)
          else if len = clen then .ok (data, rest)
          else
            match collect mem (len - clen) rest with
            | .error fault => .error fault
            | .ok (more, rest) => .ok (data ++ more, rest)

def readLoop (st : Store) (n offset : Nat) :
    Nat → Nat → Nat → List Byte → List Iov → Disk → Except Fault (Bool × Disk)
  | 0, _, _, _, _, d => .ok (false, d)
  | fuel + 1, resid, off, buf, iov, d =>
      if resid = 0 then .ok (false, d)
      else
        let len := min resid st.maxphys
        if st.fails n (offset + off) then .ok (true, d)
        else
          let got := d.content (offset + off) len
          let buf := got ++ buf.drop got.length
          match spread (buf.take len) iov d.mem with
          | .error fault => .error fault
          | .ok (mem, iov) =>
              readLoop st n offset fuel (resid - len) (off + len) buf iov { d with mem := mem }

def writeLoop (st : Store) (n offset : Nat) :
    Nat → Nat → Nat → List Iov → Disk → Except Fault (Bool × Disk)
  | 0, _, _, _, d => .ok (false, d)
  | fuel + 1, resid, off, iov, d =>
      if resid = 0 then .ok (false, d)
      else
        let len := min resid st.maxphys
        match collect d.mem len iov with
        | .error fault => .error fault
        | .ok (data, iov) =>
            if st.fails n (offset + off) then .ok (true, d)
            else writeLoop st n offset fuel (resid - len) (off + len) iov
              (d.write (offset + off) data)

/-- A read or a write of blockif_proc. The system does neither through a null pointer. -/
def blockifProc (st : Store) (n : Nat) (write : Bool) (req : BlockReq) (d : Disk) :
    Except Fault (Bool × Disk) :=
  let direct := decide (req.iov.length ≤ 1) || !st.geom
  let faults := st.fails n req.offset || !req.iov.all Iov.mapped
  let addresses := req.iov.flatMap Iov.addresses
  if write then
    if st.rdonly then .ok (true, d)
    else if direct then
      if faults then .ok (true, d) else .ok (false, d.write req.offset (addresses.map d.mem))
    else writeLoop st n req.offset req.resid req.resid 0 req.iov d
  else if direct then
    if faults then .ok (true, d)
    else .ok (false, { d with
      mem := place (d.content req.offset addresses.length) addresses d.mem })
  else readLoop st n req.offset req.resid req.resid 0 (List.replicate st.maxphys 0) req.iov d

def blockifRequest (st : Store) (write : Bool) (w : Work) : Except Fault (Bool × Work) :=
  if st.refuses w.requests then .ok (true, { w with requests := w.requests + 1 })
  else
    match blockifProc st w.requests write w.req w.disk with
    | .error fault => .error fault
    | .ok (err, d) => .ok (err, { w with disk := d, requests := w.requests + 1 })

section
variable (map : MapGpa) (st : Store) (write : Bool)

def mergeIov (size : Nat) (w : Work) : Except Fault (Bool × Work) :=
  if w.req.iov = [] then .error .outOfBounds
  else
    .ok (false, { w with
      req := { w.req with
        iov := w.req.iov.dropLast ++ [⟨map w.req.prevGpaddr size, w.req.prevSize + size⟩]
        prevSize := w.req.prevSize + size
        resid := w.req.resid + size } })

/-- A request with all entries in use is sent off, with br_iovcnt cleared before, and its errors are
    not looked at. -/
def partialIo (w : Work) : Except Fault Work :=
  if w.req.iov.length = maxBlockiovs then
    match blockifRequest st write { w with req := { w.req with iov := [] } } with
    | .error fault => .error fault
    | .ok (_, w) => .ok w
  else .ok w

def newIov (gpaddr : BitVec 64) (size lba : Nat) (w : Work) : Except Fault (Bool × Work) :=
  match partialIo st write w with
  | .error fault => .error fault
  | .ok w =>
      if w.req.iov.length ≥ maxBlockiovs then .error .outOfBounds
      else
        let first := w.req.iov.isEmpty
        .ok (false, { w with
          req :=
            { iov := w.req.iov ++ [⟨map gpaddr size, size⟩]
              offset := if first then lba else w.req.offset
              resid := (if first then 0 else w.req.resid) + size
              prevGpaddr := gpaddr
              prevSize := size } })

def copyRam (gpaddr : BitVec 64) (size lba : Nat) (w : Work) : Except Fault (Bool × Work) :=
  if (lba + size) % 2 ^ 64 > w.disk.length then .ok (true, w)
  else if lba + size > w.disk.length then .error .outOfBounds
  else
    match map gpaddr size with
    | none => .error .nullBase
    | some p =>
        if write then
          .ok (false, { w with
            disk := { w.disk with
              store := place ((List.range' p size).map w.disk.mem) (List.range' lba size)
                w.disk.store } })
        else
          .ok (false, { w with
            disk := { w.disk with
              mem := place ((List.range' lba size).map w.disk.store) (List.range' p size)
                w.disk.mem } })

def appendIovReq (gpaddr : BitVec 64) (size lba : Nat) (w : Work) : Except Fault (Bool × Work) :=
  if st.ram then copyRam map write gpaddr size lba w
  else if w.req.prevGpaddr + BitVec.ofNat 64 w.req.prevSize = gpaddr then
    mergeIov map size w
  else newIov map st write gpaddr size lba w

def prpItem (mem : Nat → Byte) (list i : Nat) : BitVec 64 :=
  BitVec.ofNat 64 ((List.range 8).foldr (fun k sum => (mem (list + 8 * i + k)).toNat + 256 * sum) 0)

def nextList (mem : Nat → Byte) (list i size : Nat) : Except Fault (Nat × Nat) :=
  if i = prp2Items - 1 ∧ size > pageSize then
    if (prpItem mem list i).toNat % pageSize ≠ 0 then .error .assertion
    else
      match map (prpItem mem list i) pageSize with
      | none => .error .nullBase
      | some list => .ok (list, 0)
  else .ok (list, i)

def prpLoop : Nat → Nat → Nat → Nat → Nat → Work → Except Fault (Bool × Work)
  | 0, _, _, _, _, w => .ok (false, w)
  | fuel + 1, list, i, lba, size, w =>
      if size = 0 then .ok (false, w)
      else
        match nextList map w.disk.mem list i size with
        | .error fault => .error fault
        | .ok (list, i) =>
            let cpsz := min size pageSize
            if prpItem w.disk.mem list i = 0 then .ok (true, w)
            else
              match appendIovReq map st write (prpItem w.disk.mem list i) cpsz lba w with
              | .error fault => .error fault
              | .ok (true, w) => .ok (true, w)
              | .ok (false, w) => prpLoop fuel list (i + 1) ((lba + cpsz) % 2 ^ 64) (size - cpsz) w

/-- What follows the first page. Its error is that of the first page only if nothing follows. -/
def appendRest (prp2 : BitVec 64) (size lba : Nat) (err : Bool) (w : Work) :
    Except Fault (Bool × Work) :=
  if size = 0 then .ok (err, w)
  else if size ≤ pageSize then appendIovReq map st write prp2 size lba w
  else
    match map prp2 pageSize with
    | none => .error .nullBase
    | some list => prpLoop map st write size list 0 lba size w

end

def clearLow (prp : BitVec 64) : BitVec 64 := prp &&& ~~~3

def RwCommand.slba (cmd : RwCommand) : Nat := cmd.cdw11.toNat * 2 ^ 32 + cmd.cdw10.toNat

def RwCommand.bytes (cmd : RwCommand) (st : Store) : Nat :=
  ((cmd.cdw12 &&& 0xffff).toNat + 1) * st.sectsz

def RwCommand.cpsz (cmd : RwCommand) (st : Store) : Nat :=
  min (pageSize - (clearLow cmd.prp1).toNat % pageSize) (cmd.bytes st)

def newRequest (cmd : RwCommand) : BlockReq := ⟨[], cmd.slba, 0, 0, 0⟩

def finish (st : Store) (cmd : RwCommand) (err : Bool) (w : Work) :
    Except Fault (BitVec 16 × Disk) :=
  if st.ram then
    .ok (statusGenc (if err then scLbaOutOfRange else scSuccess), w.disk)
  else if err || (decide (cmd.opc ≠ opcRead) && decide (cmd.opc ≠ opcWrite)) then
    .ok (statusGenc scDataTransferError, w.disk)
  else
    match blockifRequest st (decide (cmd.opc = opcWrite)) w with
    | .error fault => .error fault
    | .ok (err, w) => .ok (statusGenc (if err then scDataTransferError else scSuccess), w.disk)

/-- A command of an I/O queue that is no flush, no deallocation and no write of zeroes, up to its
    completion. -/
def rwCommand (map : MapGpa) (st : Store) (cmd : RwCommand) (d : Disk) :
    Except Fault (BitVec 16 × Disk) :=
  let write := decide (cmd.opc = opcWrite)
  let lba := cmd.slba * st.sectsz % 2 ^ 64
  let cpsz := cmd.cpsz st
  match appendIovReq map st write (clearLow cmd.prp1) cpsz lba ⟨d, newRequest cmd, 0⟩ with
  | .error fault => .error fault
  | .ok (err, w) =>
      match appendRest map st write (clearLow cmd.prp2) (cmd.bytes st - cpsz)
          ((lba + cpsz) % 2 ^ 64) err w with
      | .error fault => .error fault
      | .ok (err, w) => finish st cmd err w
end Nvme
