import Mathlib.Algebra.Group.Nat.Defs
import Bhyve.Lib.Patches

/-!
The memory packets and the software breakpoints of gdb.c: what they read and write in guest memory,
with the loops over pages, and the breakpoint exits of the vCPUs.
-/
namespace Gdb
open Patches Function

abbrev Byte := BitVec 8
abbrev Addr := BitVec 64
abbrev Ram := Addr → Byte

/-- A pointer into the buffer of commands: the bytes from there on, and how many of them are left
    of the packet. -/
structure Text where
  data : Nat → Byte
  len : BitVec 64

def Text.of (bytes : List Byte) : Text := ⟨fun i => bytes.getD i 0, BitVec.ofNat 64 bytes.length⟩

def Text.advance (t : Text) (n : Nat) : Text :=
  ⟨fun i => t.data (n + i), t.len - BitVec.ofNat 64 n⟩

def Text.first (t : Text) (n : Nat) : List Byte := (List.range n).map t.data

def parseDigit (v : Byte) : Byte :=
  if 0x30 ≤ v ∧ v ≤ 0x39 then v - 0x30
  else if 0x61 ≤ v ∧ v ≤ 0x66 then v - 0x61 + 10
  else if 0x41 ≤ v ∧ v ≤ 0x46 then v - 0x41 + 10
  else 0xf

def parseInteger (p : List Byte) : BitVec 64 :=
  p.foldl (fun v digit => v <<< 4 ||| (parseDigit digit).setWidth 64) 0

def parseByte (first second : Byte) : Byte := parseDigit first <<< 4 ||| parseDigit second

def Text.memchr (t : Text) (c : Byte) : Option Nat :=
  (List.range t.len.toNat).find? fun i => t.data i = c

def Text.number (t : Text) (stop : Byte) : Option (BitVec 64 × Text) :=
  match t.memchr stop with
  | none => none
  | some 0 => none
  | some n => some (parseInteger (t.first n), t.advance (n + 1))

inductive Reply where
  | empty
  | ok
  | error (errno : Byte)
  | bytes (data : List Byte)
deriving DecidableEq

def einval : Byte := 22
def efault : Byte := 14

section

inductive CpuMode where
  | real
  | protected_
  | mode64

inductive PagingMode where
  | flat
  | mode32
  | pae
  | mode64

structure Regs where
  cr0 : BitVec 64
  cr3 : BitVec 64
  cr4 : BitVec 64
  efer : BitVec 64

structure Paging where
  cr3 : BitVec 64
  cpl : Nat
  cpuMode : CpuMode
  pagingMode : PagingMode

/-- What is outside of the debug server and stays: the number of vCPUs, which ranges are guest
    memory (vm_map_gpa), the walk of the page tables (vm_gla2gpa_nofault, with the error, or none
    on a fault), and the devices. -/
structure Machine (Dev : Type) where
  guestNcpus : Nat
  mapGpa : Addr → Nat → Bool
  gla2gpa : Ram → Nat → Paging → Addr → Except Byte (Option Addr)
  readMem : Dev → Nat → Addr → Nat → Option (BitVec 64) × Dev
  writeMem : Dev → Nat → Addr → BitVec 64 → Nat → Bool × Dev

structure Answers where
  registers : Nat → Except Byte Regs
  refuses : Nat → Bool

def guestPagingInfo (regs : Regs) : Paging where
  cr3 := regs.cr3
  cpl := 0
  cpuMode :=
    if regs.efer &&& 0x400 ≠ 0 then .mode64 else if regs.cr0 &&& 1 ≠ 0 then .protected_ else .real
  pagingMode :=
    if regs.cr0 &&& 0x80000000 = 0 then .flat
    else if regs.cr4 &&& 0x20 = 0 then .mode32
    else if regs.efer &&& 0x100 ≠ 0 then .mode64
    else .pae

structure Breakpoint where
  gpa : Addr
  shadowInst : Byte
deriving DecidableEq

structure State (Dev : Type) where
  ram : Ram
  dev : Dev
  breakpoints : List Breakpoint
  vcpusActive : Nat → Bool
  /-- VM_CAP_BPT_EXIT of each vCPU. -/
  bptExit : Nat → Bool
  curVcpu : Nat

variable {Dev : Type} (m : Machine Dev) (k : Answers)

def guestVaddr2paddr (ram : Ram) (vcpu : Nat) (vaddr : Addr) : Except Byte (Option Addr) :=
  match k.registers vcpu with
  | .error errno => .error errno
  | .ok regs => m.gla2gpa ram vcpu (guestPagingInfo regs) vaddr

def gpaOf (ram : Ram) (vcpu : Nat) (vaddr : Addr) : Except Byte Addr :=
  match guestVaddr2paddr m k ram vcpu vaddr with
  | .error errno => .error errno
  | .ok none => .error efault
  | .ok (some gpa) => .ok gpa

def pageSize : Nat := 4096

def onPage (gpa : Addr) (resid : Nat) : Nat := min (pageSize - gpa.toNat % pageSize) resid

/-- The width of the next access to a device. With three bytes left it may be four. -/
def accessBytes (gpa : Addr) (todo : BitVec 64) : Nat :=
  if gpa &&& 1 ≠ 0 ∨ todo = 1 then 1 else if gpa &&& 2 ≠ 0 ∨ todo = 2 then 2 else 4

end

section
variable {Dev : Type} (m : Machine Dev) (k : Answers)

inductive Cell where
  | ram (gpa : Addr)
  | mmio (byte : Byte)
deriving DecidableEq

def Cell.byte (ram : Ram) : Cell → Byte
  | .ram gpa => ram gpa
  | .mmio byte => byte

structure Reading (Dev : Type) where
  dev : Dev
  started : Bool
  cells : List Cell
  failed : Option Byte

def ramCells (gpa : Addr) (n : Nat) : List Cell :=
  (List.range n).map fun i => .ram (gpa + BitVec.ofNat 64 i)

def wordCells (val : BitVec 64) (n : Nat) : List Cell :=
  (List.range n).map fun i => .mmio (val.extractLsb' (8 * i) 8)

/-- A page of a device. The number of bytes left passes zero where more are read than that, and the
    loop goes on up to an access that fails, as one must before all addresses are through. -/
def readWords (vcpu : Nat) : Nat → Reading Dev → Addr → BitVec 64 → Reading Dev
  | 0, r, _, _ => { r with failed := some efault }
  | fuel + 1, r, gpa, todo =>
      if todo = 0 then r
      else
        let bytes := accessBytes gpa todo
        match m.readMem r.dev vcpu gpa bytes with
        | (none, dev) => { r with dev := dev, failed := some efault }
        | (some val, dev) =>
            readWords vcpu fuel
              { r with dev := dev, started := true, cells := r.cells ++ wordCells val bytes }
              (gpa + BitVec.ofNat 64 bytes) (todo - BitVec.ofNat 64 bytes)

def readPages (ram : Ram) (vcpu : Nat) : Nat → Reading Dev → Addr → Nat → Reading Dev
  | 0, r, _, _ => r
  | fuel + 1, r, gva, resid =>
      if resid = 0 then r
      else
        match gpaOf m k ram vcpu gva with
        | .error errno => { r with failed := some errno }
        | .ok gpa =>
            let todo := onPage gpa resid
            if m.mapGpa gpa todo then
              readPages ram vcpu fuel
                { r with started := true, cells := r.cells ++ ramCells gpa todo }
                (gva + BitVec.ofNat 64 todo) (resid - todo)
            else
              let r := readWords m vcpu (2 ^ 64) r gpa (BitVec.ofNat 64 todo)
              if r.failed.isSome then r
              else readPages ram vcpu fuel r (gva + BitVec.ofNat 64 todo) (resid - todo)

/-- What a packet that starts with m reads, or none when it cannot be parsed. -/
def memReading (s : State Dev) (text : Text) : Option (Reading Dev) :=
  match (text.advance 1).number 0x2c with
  | none => none
  | some (gva, rest) =>
      let resid := (parseInteger (rest.first rest.len.toNat)).toNat
      some (readPages m k s.ram s.curVcpu resid ⟨s.dev, false, [], none⟩ gva resid)

def Reading.reply (r : Reading Dev) (ram : Ram) : Reply :=
  match r.failed with
  | some errno => if r.started then .bytes (r.cells.map (·.byte ram)) else .error errno
  | none => .bytes (r.cells.map (·.byte ram))

def gdbReadMem (s : State Dev) (text : Text) : State Dev × Reply :=
  match memReading m k s text with
  | none => (s, .error einval)
  | some r => ({ s with dev := r.dev }, r.reply s.ram)

end

section
variable {Dev : Type} (m : Machine Dev) (k : Answers)

inductive Fault where
  | assertion
deriving DecidableEq

structure Writing (Dev : Type) where
  ram : Ram
  dev : Dev
  text : Text
  stores : List (Addr × Byte)
  failed : Option Byte

def be16toh (v : BitVec 64) : BitVec 64 := (v.extractLsb' 0 8 ++ v.extractLsb' 8 8).setWidth 64

def be32toh (v : BitVec 64) : BitVec 64 :=
  (v.extractLsb' 0 8 ++ v.extractLsb' 8 8 ++ v.extractLsb' 16 8 ++ v.extractLsb' 24 8).setWidth 64

def writeRam : Nat → Writing Dev → Addr → Except Fault (Writing Dev)
  | 0, w, _ => .ok w
  | todo + 1, w, gpa =>
      if w.text.len < 2 then .error .assertion
      else
        let v := parseByte (w.text.data 0) (w.text.data 1)
        writeRam todo
          { w with
            ram := update w.ram gpa v
            text := w.text.advance 2
            stores := w.stores ++ [(gpa, v)] }
          (gpa + 1)

/-- As for reading; the packet may end before what is written does. -/
def writeWords (vcpu : Nat) : Nat → Writing Dev → Addr → BitVec 64 → Writing Dev
  | 0, w, _, _ => { w with failed := some efault }
  | fuel + 1, w, gpa, todo =>
      if todo = 0 then w
      else
        let bytes := accessBytes gpa todo
        let val :=
          if bytes = 1 then (parseByte (w.text.data 0) (w.text.data 1)).setWidth 64
          else if bytes = 2 then be16toh (parseInteger (w.text.first 4))
          else be32toh (parseInteger (w.text.first 8))
        match m.writeMem w.dev vcpu gpa val bytes with
        | (false, dev) => { w with dev := dev, failed := some efault }
        | (true, dev) =>
            writeWords vcpu fuel { w with dev := dev, text := w.text.advance (2 * bytes) }
              (gpa + BitVec.ofNat 64 bytes) (todo - BitVec.ofNat 64 bytes)

def writePages (vcpu : Nat) : Nat → Writing Dev → Addr → Nat → Except Fault (Writing Dev)
  | 0, w, _, _ => .ok w
  | fuel + 1, w, gva, resid =>
      if resid = 0 then .ok w
      else
        match gpaOf m k w.ram vcpu gva with
        | .error errno => .ok { w with failed := some errno }
        | .ok gpa =>
            let todo := onPage gpa resid
            if m.mapGpa gpa todo then
              match writeRam todo w gpa with
              | .error fault => .error fault
              | .ok w => writePages vcpu fuel w (gva + BitVec.ofNat 64 todo) (resid - todo)
            else
              let w := writeWords m vcpu (2 ^ 64) w gpa (BitVec.ofNat 64 todo)
              if w.failed.isSome then .ok w
              else writePages vcpu fuel w (gva + BitVec.ofNat 64 todo) (resid - todo)

/-- What a packet that starts with M writes, or none when it is refused. The check of its length
    is one of numbers of 64 bits. -/
def memWriting (s : State Dev) (text : Text) : Except Fault (Option (Writing Dev)) :=
  match (text.advance 1).number 0x2c with
  | none => .ok none
  | some (gva, rest) =>
      match rest.number 0x3a with
      | none => .ok none
      | some (resid, rest) =>
          if rest.len ≠ resid * 2 then .ok none
          else
            match writePages m k s.curVcpu resid.toNat ⟨s.ram, s.dev, rest, [], none⟩ gva
                resid.toNat with
            | .error fault => .error fault
            | .ok w => .ok (some w)

def gdbWriteMem (s : State Dev) (text : Text) : Except Fault (State Dev × Reply) :=
  match memWriting m k s text with
  | .error fault => .error fault
  | .ok none => .ok (s, .error einval)
  | .ok (some w) =>
      .ok ({ s with ram := w.ram, dev := w.dev },
        match w.failed with
        | some errno => .error errno
        | none => .ok)

end

section
variable {Dev : Type} {m : Machine Dev} {k : Answers}

theorem onPage_pos (gpa : Addr) {resid : Nat} (left : resid ≠ 0) : 0 < onPage gpa resid := by
  have := Nat.mod_lt gpa.toNat (show 0 < pageSize by decide)
  unfold onPage
  omega

theorem readPages_fuel (ram : Ram) (vcpu fuel : Nat) : ∀ (r : Reading Dev) (gva : Addr) (resid : Nat),
    resid ≤ fuel →
      readPages m k ram vcpu (fuel + 1) r gva resid = readPages m k ram vcpu fuel r gva resid := by
  induction fuel with
  | zero =>
    intro r gva resid small
    obtain rfl := Nat.le_zero.mp small
    simp [readPages]
  | succ fuel ih =>
    intro r gva resid small
    by_cases done : resid = 0
    · simp only [readPages, if_pos done]
    · conv_lhs => rw [readPages]
      conv_rhs => rw [readPages]
      cases at_ : gpaOf m k ram vcpu gva with
      | error errno => rfl
      | ok gpa =>
        have less : resid - onPage gpa resid ≤ fuel := by
          have := onPage_pos gpa done
          omega
        simp only [ih _ _ _ less]

theorem writePages_fuel (vcpu fuel : Nat) : ∀ (w : Writing Dev) (gva : Addr) (resid : Nat),
    resid ≤ fuel →
      writePages m k vcpu (fuel + 1) w gva resid = writePages m k vcpu fuel w gva resid := by
  induction fuel with
  | zero =>
    intro w gva resid small
    obtain rfl := Nat.le_zero.mp small
    simp [writePages]
  | succ fuel ih =>
    intro w gva resid small
    by_cases done : resid = 0
    · simp only [writePages, if_pos done]
    · conv_lhs => rw [writePages]
      conv_rhs => rw [writePages]
      cases at_ : gpaOf m k w.ram vcpu gva with
      | error errno => rfl
      | ok gpa =>
        have less : resid - onPage gpa resid ≤ fuel := by
          have := onPage_pos gpa done
          omega
        simp only [ih _ _ _ less]

end

section
variable {Dev : Type} (m : Machine Dev) (k : Answers)

def setCaps (enable : Bool) : List Nat → (Nat → Bool) → (Nat → Bool) × Bool
  | [], caps => (caps, true)
  | vcpu :: mask, caps =>
      if k.refuses vcpu then (caps, false)
      else setCaps enable mask (update caps vcpu enable)

def activeMask (s : State Dev) : List Nat := (List.range m.guestNcpus).filter fun v => s.vcpusActive v

variable (s : State Dev)

def setBreakpointCaps (enable : Bool) : State Dev × Bool :=
  let (caps, done) := setCaps k enable (activeMask m s) s.bptExit
  ({ s with bptExit := caps }, done)

def findBreakpoint (gpa : Addr) : Option Breakpoint :=
  s.breakpoints.find? fun bp => bp.gpa = gpa

def removeAllSwBreakpoints (s : State Dev) : State Dev :=
  if s.breakpoints = [] then s
  else
    (setBreakpointCaps m k
      { s with
        ram := restoreAll Breakpoint.gpa Breakpoint.shadowInst s.ram s.breakpoints
        breakpoints := [] } false).1

def swBreakpointGpa (gva : Addr) (kind : BitVec 32) : Except Reply Addr :=
  if kind ≠ 1 then .error (.error einval)
  else
    match gpaOf m k s.ram s.curVcpu gva with
    | .error errno => .error (.error errno)
    | .ok gpa => if m.mapGpa gpa 1 then .ok gpa else .error (.error efault)

def updateSwBreakpoint (gva : Addr) (kind : BitVec 32) (insert : Bool) : State Dev × Reply :=
  match swBreakpointGpa m k s gva kind with
  | .error reply => (s, reply)
  | .ok gpa =>
      match findBreakpoint s gpa with
      | none =>
          if insert then
            let (s, done) := if s.breakpoints = [] then setBreakpointCaps m k s true else (s, true)
            if done then
              ({ s with
                ram := update s.ram gpa 0xcc
                breakpoints := s.breakpoints ++ [⟨gpa, s.ram gpa⟩] }, .ok)
            else (s, .empty)
          else (s, .ok)
      | some bp =>
          if insert then (s, .ok)
          else
            let s := { s with
              ram := update s.ram gpa bp.shadowInst
              breakpoints := s.breakpoints.eraseP fun bp => bp.gpa = gpa }
            (if s.breakpoints = [] then (setBreakpointCaps m k s false).1 else s, .ok)

/-- The address, the kind and whether a breakpoint is inserted, or the answer to a packet that is
    not one for a software breakpoint. -/
def parseBreakpoint (text : Text) : Except Reply (Addr × BitVec 32 × Bool) :=
  match (text.advance 1).number 0x2c with
  | none => .error (.error einval)
  | some (type, rest) =>
      match rest.number 0x2c with
      | none => .error (.error einval)
      | some (gva, rest) =>
          match rest.memchr 0x3b with
          | some 0 => .error (.error einval)
          | some _ => .error .empty
          | none =>
              if type.setWidth 32 = (0 : BitVec 32) then
                .ok (gva, (parseInteger (rest.first rest.len.toNat)).setWidth 32, text.data 0 = 0x5a)
              else .error .empty

def breakpointPacket (text : Text) : State Dev × Reply :=
  match parseBreakpoint text with
  | .error reply => (s, reply)
  | .ok (gva, kind, insert) => updateSwBreakpoint m k s gva kind insert

/-- The new vCPU gets the breakpoint exit if there are breakpoints; whether the kernel refuses is
    not looked at. -/
def gdbCpuAdd (vcpu : Nat) : Except Fault (State Dev) :=
  if vcpu < m.guestNcpus then
    .ok { s with
      vcpusActive := update s.vcpusActive vcpu true
      bptExit :=
        if s.breakpoints = [] ∨ k.refuses vcpu then s.bptExit
        else update s.bptExit vcpu true }
  else .error .assertion

end
end Gdb
