import Bhyve.Lib.Extents
import Bhyve.Pci.Config

/-!
The base address registers of all devices: pci_emul_alloc_pbar and modify_bar_registration of
pci_emul.c over the registry of I/O ports of inout.c and that of memory ranges of mem.c.
-/
namespace Pci
open ByteMemory Extents

section
variable {D : Type}

inductive Owner (D : Type) where
  | fixed
  | device (d : D)
deriving DecidableEq

structure Region (D : Type) where
  owner : Owner D
  idx : Nat
  extent : Extent
deriving DecidableEq

structure Registry (D : Type) where
  ports : Nat → Option (Owner D)
  ranges : List (Region D)

def maxIoports : Nat := 65536

def verifyIoport (port size : Int) : Prop := 0 ≤ port ∧ 0 < size ∧ port + size ≤ maxIoports

instance (port size : Int) : Decidable (verifyIoport port size) :=
  inferInstanceAs (Decidable (_ ∧ _ ∧ _))

variable [DecidableEq D]

/-- Nothing where an assertion fails, that of the caller that there is no error included. -/
def registerInout (owner : Owner D) (port size : Int) (ports : Nat → Option (Owner D)) :
    Option (Nat → Option (Owner D)) :=
  if verifyIoport port size ∧ ∀ i < size.toNat, ports (port.toNat + i) = none then
    some fun x => if (Extent.mk port.toNat size.toNat).Has x then some owner else ports x
  else none

def unregisterInout (owner : Owner D) (port size : Int) (ports : Nat → Option (Owner D)) :
    Option (Nat → Option (Owner D)) :=
  if verifyIoport port size ∧ ports port.toNat = some owner then
    some fun x => if (Extent.mk port.toNat size.toNat).Has x then none else ports x
  else none

def Region.last (r : Region D) : Nat := (r.extent.base + r.extent.size + (2 ^ 64 - 1)) % 2 ^ 64

def Region.covers (addr : Nat) (r : Region D) : Bool :=
  decide (r.extent.base ≤ addr ∧ addr ≤ r.last)

def mmioRbLookup (ranges : List (Region D)) (addr : Nat) : Option (Region D) :=
  ranges.find? (Region.covers addr)

/-- A range that starts within another one is left out without an error. -/
def registerMem (new : Region D) (ranges : List (Region D)) : Option (List (Region D)) :=
  match mmioRbLookup ranges new.extent.base with
  | some _ => some ranges
  | none =>
      if ∀ r ∈ ranges, r.last < new.extent.base ∨ new.last < r.extent.base then
        some (new :: ranges)
      else none

def unregisterMem (owner : Owner D) (extent : Extent) (ranges : List (Region D)) :
    Option (List (Region D)) :=
  match mmioRbLookup ranges extent.base with
  | none => none
  | some entry =>
      if entry.owner = owner ∧ entry.extent = extent then some (ranges.filter (· ≠ entry)) else none

def Bar.extent (bar : Bar) : Extent := ⟨bar.addr.toNat, bar.size.toNat⟩

def region (me : D) (idx : Nat) (bar : Bar) : Region D := ⟨.device me, idx, bar.extent⟩

def modifyBarRegistration (me : D) (idx : Nat) (bar : Bar) (registration : Bool)
    (reg : Registry D) : Option (Registry D) :=
  match bar.type with
  | .io =>
      let port := (bar.addr.setWidth 32).toInt
      let size := (bar.size.setWidth 32).toInt
      let ports :=
        if registration then registerInout (.device me) port size reg.ports
        else unregisterInout (.device me) port size reg.ports
      ports.map fun ports => { reg with ports := ports }
  | .mem32 | .mem64 =>
      let ranges :=
        if registration then registerMem (region me idx bar) reg.ranges
        else unregisterMem (.device me) bar.extent reg.ranges
      ranges.map fun ranges => { reg with ranges := ranges }
  | .none | .memhi64 => none

end

section

inductive Pool where
  | io
  | mem32
  | mem64
  | host
deriving DecidableEq

def roundup2 (x y : BitVec 64) : BitVec 64 := (x + (y - 1)) &&& ~~~(y - 1)

def flsl (x : BitVec 64) : Nat := if x = 0 then 0 else x.toNat.log2 + 1

def barSize (type : BarType) (size : BitVec 64) : BitVec 64 :=
  let size := if size &&& (size - 1) ≠ 0 then (1 : BitVec 64) <<< flsl size else size
  if type = .io then if size < 4 then 4 else size else if size < 16 then 16 else size

def poolOf (type : BarType) (size : BitVec 64) : Pool :=
  match type with
  | .io => .io
  | .mem64 =>
      if 32 * 1024 * 1024 < size then if size = 0x100000000 then .host else .mem64 else .mem32
  | _ => .mem32

def Pool.limit : Pool → BitVec 64
  | .io => 0x10000
  | .mem32 => 0xe0000000
  | .mem64 | .host => 0xfd00000000

def lobits (type : BarType) (pool : Pool) : BitVec 64 :=
  match type with
  | .io => barIoSpace
  | .mem64 => if pool = .mem32 then barMem64 else barMem64 ||| barMemPrefetch
  | _ => 0

def barMask (type : BarType) : BitVec 64 := if type = .io then 0xfffffffc else 0xfffffffffffffff0

def enbit (type : BarType) : BitVec 16 :=
  BitVec.twoPow 16 (if type = .io then cmdPorten else cmdMemen)

def busioRoundup : BitVec 64 := 32
def busmemRoundup : BitVec 64 := 1024 * 1024

structure Bus (D : Type) where
  dev : D → Devinst
  next : Pool → BitVec 64
  registry : Registry D

inductive BusFault where
  | registration
  | capability
deriving DecidableEq

def pciEmulAllocResource (base limit size : BitVec 64) : Option (BitVec 64) :=
  let base := roundup2 base size
  if base + size ≤ limit then some base else none

def placeBar (d : Devinst) (idx : Nat) (bar : Bar) (pool : Pool) : Devinst :=
  let value := (bar.addr &&& barMask bar.type) ||| lobits bar.type pool
  let cfg := write32 d.cfgdata (pcirBar idx) (value.setWidth 32)
  let d := { d with cfgdata := cfg, bar := Function.update d.bar idx bar }
  let d :=
    if bar.type = .mem64 then
      { d with
        cfgdata := write32 d.cfgdata (pcirBar (idx + 1)) ((value >>> 32).setWidth 32)
        bar := Function.update d.bar (idx + 1) { d.bar (idx + 1) with type := .memhi64 } }
    else d
  { d with cfgdata := write16 d.cfgdata pcirCommand (d.command ||| enbit bar.type) }

variable {D : Type} [DecidableEq D]

def pciEmulAllocBar (s : Bus D) (me : D) (idx : Nat) (type : BarType) (size : BitVec 64) :
    Except BusFault (Bus D) :=
  if pciBarmax < idx ∨ type = .none ∨ type = .memhi64 then .error .registration
  else
    let size := barSize type size
    let pool := poolOf type size
    let base := if pool = .host then 0 else s.next pool
    match pciEmulAllocResource base pool.limit size with
    | none => .ok s
    | some addr =>
        let bar : Bar := ⟨type, size, addr⟩
        if type = .mem64 ∧ pciBarmax < idx + 1 then .error .registration
        else
          match modifyBarRegistration me idx bar true s.registry with
          | none => .error .registration
          | some registry => .ok
              { dev := Function.update s.dev me (placeBar (s.dev me) idx bar pool)
                next := Function.update s.next pool (addr + size)
                registry := registry }

def nextBus (s : Bus D) : Bus D :=
  { s with next := fun pool =>
      let roundup := if pool = .io then busioRoundup else busmemRoundup
      roundup2 (s.next pool + roundup) roundup }

end
end Pci
