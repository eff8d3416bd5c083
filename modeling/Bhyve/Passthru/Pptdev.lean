import Mathlib.Algebra.Group.Nat.Defs
import Mathlib.Logic.Function.Basic

/-!
Passthrough devices and the domains of the IOMMU: vm_assign_pptdev and vm_unassign_pptdev with what
they call. Addresses are page numbers, and a domain is the map that its tables denote.
-/
namespace Passthru
open Function

structure MemMap where
  gpa : Nat
  len : Nat
  sysmem : Bool
  write : Bool
  wired : Bool
  iommu : Bool
  frame : Nat → Nat

structure Vm where
  maps : List MemMap
  iommu : Option Nat

structure Pptdev where
  bus : Fin 256
  slot : Fin 32
  func : Fin 8
  inScope : Bool
  vm : Option Nat

structure Host where
  vms : Nat → Vm
  devs : List Pptdev
  avail : Bool
  ndomains : Nat
  tables : Nat → Nat → Option Nat
  ctx : Nat → Option Nat

inductive Errno where
  | none
  | enoent
  | ebusy
  | enxio
deriving DecidableEq

inductive Fault where
  | iommuNotNull
  | mapInvalid
  | unmapInvalid
  | notMapped
  | nullDomain
  | alreadyOwned
  | notInScope
deriving DecidableEq

def MemMap.contains (mm : MemMap) (gpa : Nat) : Bool :=
  decide (mm.gpa ≤ gpa) && decide (gpa < mm.gpa + mm.len)

def sysmemMapping (mm : MemMap) : Bool := decide (mm.len ≠ 0) && mm.sysmem

def vmGpaHold (maps : List MemMap) (gpa : Nat) : Option Nat :=
  match maps.find? fun mm => sysmemMapping mm && mm.contains gpa with
  | none => none
  | some mm => if mm.write then some (mm.frame (gpa - mm.gpa)) else none

structure Pages where
  guest : Nat → Option Nat
  host : Nat → Option Nat

def movePage (map : Bool) (gpa hpa : Nat) (p : Pages) : Pages :=
  if map then ⟨update p.guest gpa (some hpa), update p.host hpa none⟩
  else ⟨update p.guest gpa none, update p.host hpa (some hpa)⟩

def modifyPages (maps : List MemMap) (map : Bool) : Nat → Nat → Pages → Except Fault Pages
  | _, 0, p => .ok p
  | gpa, n + 1, p =>
      match vmGpaHold maps gpa with
      | none => .error .notMapped
      | some hpa => modifyPages maps map (gpa + 1) n (movePage map gpa hpa p)

def modifyMap (maps : List MemMap) (map : Bool) (mm : MemMap) (p : Pages) :
    Except Fault (MemMap × Pages) :=
  if sysmemMapping mm = false then .ok (mm, p)
  else if map ∧ mm.iommu then .error .mapInvalid
  else if (if map then mm.wired else mm.iommu) = false then .ok (mm, p)
  else if mm.wired = false then .error .unmapInvalid
  else
    match modifyPages maps map mm.gpa mm.len p with
    | .error fault => .error fault
    | .ok p => .ok ({ mm with iommu := map }, p)

def modifyMaps (maps : List MemMap) (map : Bool) :
    List MemMap → Pages → Except Fault (List MemMap × Pages)
  | [], p => .ok ([], p)
  | mm :: rest, p =>
      match modifyMap maps map mm p with
      | .error fault => .error fault
      | .ok (mm, p) =>
          match modifyMaps maps map rest p with
          | .error fault => .error fault
          | .ok (rest, p) => .ok (mm :: rest, p)

def vmIommuModify (v : Nat) (map : Bool) (s : Host) : Except Fault Host :=
  match (s.vms v).iommu with
  | none => .error .nullDomain
  | some dom =>
      match modifyMaps (s.vms v).maps map (s.vms v).maps ⟨s.tables dom, s.tables 0⟩ with
      | .error fault => .error fault
      | .ok (maps, p) =>
          .ok { s with
            vms := update s.vms v { s.vms v with maps := maps }
            tables := update (update s.tables dom p.guest) 0 p.host }

def Pptdev.isAt (d : Pptdev) (bus slot func : Nat) : Bool :=
  decide (d.bus.val = bus) && decide (d.slot.val = slot) && decide (d.func.val = func)

def pciGetRid (d : Pptdev) : Nat := d.bus.val * 2 ^ 8 + d.slot.val * 2 ^ 3 + d.func.val

def pptFind (bus slot func : Nat) (s : Host) : Option Pptdev :=
  s.devs.find? fun d => d.isAt bus slot func

def pptAssignedDevices (v : Nat) (s : Host) : Nat :=
  s.devs.countP fun d => decide (d.vm = some v)

def Host.setOwner (bus slot func : Nat) (owner : Option Nat) (s : Host) : Host :=
  { s with devs := s.devs.map fun d => if d.isAt bus slot func then { d with vm := owner } else d }

def vtdAddDevice (d : Pptdev) (dom : Nat) (s : Host) : Except Fault Host :=
  if (s.ctx (pciGetRid d)).isSome then .error .alreadyOwned
  else if d.inScope = false then .error .notInScope
  else .ok { s with ctx := update s.ctx (pciGetRid d) (some dom) }

def vtdRemoveDevice (d : Pptdev) (s : Host) : Host :=
  { s with ctx := update s.ctx (pciGetRid d) none }

def iommuAddDevice (d : Pptdev) (v : Nat) (s : Host) : Except Fault Host :=
  match (s.vms v).iommu with
  | none => .error .nullDomain
  | some dom => vtdAddDevice d dom s

def pptAssignDevice (v bus slot func : Nat) (s : Host) : Except Fault (Errno × Host) :=
  match pptFind bus slot func s with
  | none => .ok (.enoent, s)
  | some d =>
      if d.vm ≠ none ∧ d.vm ≠ some v then .ok (.ebusy, s)
      else
        match iommuAddDevice d v (s.setOwner bus slot func (some v)) with
        | .error fault => .error fault
        | .ok s => .ok (.none, s)

def pptUnassignDevice (v bus slot func : Nat) (s : Host) : Errno × Host :=
  match pptFind bus slot func s with
  | none => (.enoent, s)
  | some d =>
      if d.vm ≠ some v then (.ebusy, s)
      else (.none, (vtdRemoveDevice d s).setOwner bus slot func none)

def iommuCreateDomain (s : Host) : Option (Nat × Host) :=
  if s.avail then
    some (s.ndomains, { s with
      ndomains := s.ndomains + 1
      tables := update s.tables s.ndomains fun _ => none })
  else none

def Host.setIommu (v dom : Nat) (s : Host) : Host :=
  { s with vms := update s.vms v { s.vms v with iommu := some dom } }

def vmAssignPptdev (v bus slot func : Nat) (s : Host) : Except Fault (Errno × Host) :=
  if pptAssignedDevices v s = 0 then
    if (s.vms v).iommu ≠ none then .error .iommuNotNull
    else
      match iommuCreateDomain s with
      | none => .ok (.enxio, s)
      | some (dom, s) =>
          match vmIommuModify v true (s.setIommu v dom) with
          | .error fault => .error fault
          | .ok s => pptAssignDevice v bus slot func s
  else pptAssignDevice v bus slot func s

def vmUnassignPptdev (v bus slot func : Nat) (s : Host) : Except Fault (Errno × Host) :=
  match pptUnassignDevice v bus slot func s with
  | (.none, s) =>
      if pptAssignedDevices v s = 0 then
        match vmIommuModify v false s with
        | .error fault => .error fault
        | .ok s => .ok (.none, s)
      else .ok (.none, s)
  | (error, s) => .ok (error, s)

inductive Call where
  | assign (v bus slot func : Nat)
  | unassign (v bus slot func : Nat)

def call (s : Host) : Call → Except Fault (Errno × Host)
  | .assign v bus slot func => vmAssignPptdev v bus slot func s
  | .unassign v bus slot func => vmUnassignPptdev v bus slot func s

def callStep (s : Host) (c : Call) : Except Fault Host :=
  match call s c with
  | .error fault => .error fault
  | .ok (_, s) => .ok s
end Passthru
