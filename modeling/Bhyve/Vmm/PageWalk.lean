import Bhyve.Vmm.Decoder

/-!
The walk over the page tables of a guest. _vm_gla2gpa goes down the tables of the paging mode, sets
the accessed flag of every entry it passes and the dirty flag of the last one on a write, each by a
compare-and-set on the copy it read, and starts again when that fails. Nothing else writes the
tables meanwhile. They are given by entry: an address is a multiple of the size of an entry, so that
two entries are the same or apart. Whether a page of tables can be held is a parameter.
-/
namespace VmmPageWalk
open VmmDecoder

inductive PagingMode where
  | flat
  | bits32
  | pae
  | bits64
deriving DecidableEq

structure GuestPaging where
  cr3 : BitVec 64
  cpl : Nat
  cpuMode : CpuMode
  pagingMode : PagingMode

structure Prot where
  read : Bool
  write : Bool
  execute : Bool

abbrev Memory (w : Nat) := BitVec 64 → BitVec w

def entryBits : PagingMode → Nat
  | .flat => 64
  | .bits32 => 32
  | .pae => 64
  | .bits64 => 64

def pgV : Nat := 0
def pgRw : Nat := 1
def pgU : Nat := 2
def pgA : Nat := 5
def pgM : Nat := 6
def pgPs : Nat := 7

def withFlag {w : Nat} (pte : BitVec w) (flag : Nat) : BitVec w := pte ||| BitVec.twoPow w flag

def vieCanonicalCheck (cpuMode : CpuMode) (gla : BitVec 64) : Bool :=
  let mask : BitVec 64 := 0xffff000000000000
  if cpuMode ≠ .bits64 then false
  else if gla.getLsbD 47 then decide (gla &&& mask ≠ mask)
  else decide (gla &&& mask ≠ 0)

def pfErrorCode {w : Nat} (usermode : Bool) (prot : Prot) (rsvd : Bool) (pte : BitVec w) :
    BitVec 32 :=
  (if pte.getLsbD pgV then 0x01 else 0) ||| (if prot.write then 0x02 else 0) |||
    (if usermode then 0x04 else 0) ||| (if rsvd then 0x08 else 0) |||
    (if prot.execute then 0x10 else 0)

inductive Exception where
  | gp
  | pf (code : BitVec 32) (address : BitVec 64)
deriving DecidableEq

inductive Outcome where
  | efault
  | guestFault
  | gpa (address : BitVec 64)
deriving DecidableEq

structure Reply where
  outcome : Outcome
  injected : Option Exception
deriving DecidableEq

/-- What the loop over 32-bit entries and the one over 64-bit entries do differently. -/
structure Format (w : Nat) where
  indexBits : Nat
  table : BitVec 64 → BitVec 64
  frame : Nat → BitVec w → BitVec 64
  reserved : Nat → Bool

def format32 : Format 32 where
  indexBits := 10
  table := fun ptpphys => ptpphys &&& ~~~0xfff
  frame := fun ptpshift pte => ((pte >>> ptpshift) <<< ptpshift).setWidth 64
  reserved := fun _ => false

def format64 : Format 64 where
  indexBits := 9
  table := fun ptpphys => ((ptpphys >>> 12) <<< 24) >>> 12
  frame := fun ptpshift pte => ((pte >>> ptpshift) <<< (ptpshift + 12)) >>> 12
  reserved := fun ptpshift => decide (30 < ptpshift)

def atomicCmpset {w : Nat} (mem : Memory w) (address : BitVec 64) (old new : BitVec w) :
    Option (Memory w) :=
  if mem address = old then some (Function.update mem address new) else none

/-- Where the loop stands after one level: at an error, a fault, a failed compare-and-set, the
    entry that describes the page, or on its way down. -/
inductive Stop (w : Nat) where
  | efault
  | fault (pfcode : BitVec 32)
  | restart
  | page (address : BitVec 64) (pte : BitVec w) (ptpshift : Nat)
  | down (address : BitVec 64) (pte : BitVec w) (ptpshift : Nat)

def entryAddress (w indexBits : Nat) (table gla : BitVec 64) (ptpshift : Nat) : BitVec 64 :=
  table + BitVec.ofNat 64 (w / 8) * ((gla >>> ptpshift) &&& BitVec.ofNat 64 (2 ^ indexBits - 1))

section
variable {w : Nat} (hold : BitVec 64 → Nat → Bool) (usermode : Bool) (prot : Prot)
  (gla : BitVec 64)

def refused (pte : BitVec w) : Bool :=
  !pte.getLsbD pgV || (usermode && !pte.getLsbD pgU) || (prot.write && !pte.getLsbD pgRw)

def setFlag (wanted : Bool) (flag : Nat) (mem : Memory w) (address : BitVec 64) (pte : BitVec w) :
    Option (Memory w) :=
  if wanted && !pte.getLsbD flag then atomicCmpset mem address pte (withFlag pte flag)
  else some mem

def visit (fmt : Format w) (checkOnly : Bool) (nlevels : Nat) (ptpphys : BitVec 64)
    (mem : Memory w) : Stop w × Memory w :=
  let table := fmt.table ptpphys
  let ptpshift := 12 + nlevels * fmt.indexBits
  let address := entryAddress w fmt.indexBits table gla ptpshift
  let pte := mem address
  if hold table 4096 = false then (.efault, mem)
  else if refused usermode prot pte then (.fault (pfErrorCode usermode prot false pte), mem)
  else
    match setFlag (!checkOnly) pgA mem address pte with
    | none => (.restart, mem)
    | some mem =>
        if 0 < nlevels ∧ pte.getLsbD pgPs then
          if fmt.reserved ptpshift then (.fault (pfErrorCode usermode prot true pte), mem)
          else (.page address pte ptpshift, mem)
        else (.down address pte ptpshift, mem)

def walk (fmt : Format w) (checkOnly : Bool) : Nat → BitVec 64 → Memory w → Stop w × Memory w
  | 0, ptpphys, mem =>
      match visit hold usermode prot gla fmt checkOnly 0 ptpphys mem with
      | (.down address pte ptpshift, mem) => (.page address pte ptpshift, mem)
      | stopped => stopped
  | nlevels + 1, ptpphys, mem =>
      match visit hold usermode prot gla fmt checkOnly (nlevels + 1) ptpphys mem with
      | (.down _ pte _, mem) => walk fmt checkOnly nlevels (pte.setWidth 64) mem
      | stopped => stopped

def pageFault (checkOnly : Bool) (pfcode : BitVec 32) : Reply :=
  ⟨.guestFault, if checkOnly then none else some (.pf pfcode gla)⟩

def pageAddress (frame : BitVec 64) (ptpshift : Nat) : BitVec 64 :=
  frame ||| (gla &&& BitVec.ofNat 64 (2 ^ ptpshift - 1))

/-- What follows the loop: the dirty flag and the guest physical address. There is no reply
    when the walk starts again. -/
def finish (fmt : Format w) (checkOnly : Bool) : Stop w × Memory w → Option Reply × Memory w
  | (.efault, mem) => (some ⟨.efault, none⟩, mem)
  | (.fault pfcode, mem) => (some (pageFault gla checkOnly pfcode), mem)
  | (.restart, mem) => (none, mem)
  | (.down _ _ _, mem) => (none, mem)
  | (.page address pte ptpshift, mem) =>
      match setFlag (!checkOnly && prot.write) pgM mem address pte with
      | none => (none, mem)
      | some mem => (some ⟨.gpa (pageAddress gla (fmt.frame ptpshift pte) ptpshift), none⟩, mem)

def tableWalk (fmt : Format w) (checkOnly : Bool) (nlevels : Nat) (root : BitVec 64)
    (mem : Memory w) : Option Reply × Memory w :=
  finish prot gla fmt checkOnly (walk hold usermode prot gla fmt checkOnly nlevels root mem)

/-- The entry of the page directory pointer table, of which only the valid flag counts. -/
def paeAddress (cr3 : BitVec 64) : BitVec 64 :=
  (cr3 &&& 0xffffffe0) + 8 * ((gla >>> 30) &&& 0x3)

def paeWalk (checkOnly : Bool) (cr3 : BitVec 64) (mem : Memory 64) : Option Reply × Memory 64 :=
  let pte := mem (paeAddress gla cr3)
  if hold (cr3 &&& 0xffffffe0) 32 = false then (some ⟨.efault, none⟩, mem)
  else if !pte.getLsbD pgV then
    (some (pageFault gla checkOnly (pfErrorCode usermode prot false pte)), mem)
  else tableWalk hold usermode prot gla format64 checkOnly 1 pte mem

def modeWalk (checkOnly : Bool) (cr3 : BitVec 64) :
    (mode : PagingMode) → Memory (entryBits mode) → Option Reply × Memory (entryBits mode)
  | .flat, mem => (some ⟨.gpa gla, none⟩, mem)
  | .bits32, mem => tableWalk hold usermode prot gla format32 checkOnly 1 cr3 mem
  | .pae, mem => paeWalk hold usermode prot gla checkOnly cr3 mem
  | .bits64, mem => tableWalk hold usermode prot gla format64 checkOnly 3 cr3 mem

end

def usermodeOf (paging : GuestPaging) : Bool := decide (paging.cpl = 3)

def attempt (hold : BitVec 64 → Nat → Bool) (paging : GuestPaging) (gla : BitVec 64) (prot : Prot)
    (checkOnly : Bool) (mem : Memory (entryBits paging.pagingMode)) :
    Option Reply × Memory (entryBits paging.pagingMode) :=
  if vieCanonicalCheck paging.cpuMode gla then
    (some ⟨.guestFault, if checkOnly then none else some .gp⟩, mem)
  else modeWalk hold (usermodeOf paging) prot gla checkOnly paging.cr3 paging.pagingMode mem

structure Finished (w : Nat) where
  reply : Reply
  mem : Memory w
  restarts : Nat

def vmGla2gpa (hold : BitVec 64 → Nat → Bool) (paging : GuestPaging) (gla : BitVec 64)
    (prot : Prot) (checkOnly : Bool) :
    Nat → Memory (entryBits paging.pagingMode) → Option (Finished (entryBits paging.pagingMode))
  | 0, _ => none
  | turns + 1, mem =>
      match attempt hold paging gla prot checkOnly mem with
      | (some reply, mem) => some ⟨reply, mem, 0⟩
      | (none, mem) =>
          (vmGla2gpa hold paging gla prot checkOnly turns mem).map
            fun done => { done with restarts := done.restarts + 1 }

end VmmPageWalk
