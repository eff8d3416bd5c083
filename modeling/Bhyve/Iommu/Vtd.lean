import Bhyve.Lib.RadixTables

/-!
The page tables of a VT-d domain: vtd_create_domain, vtd_update_mapping and vtd_free_ptp, with the
loops of iommu_create_mapping and iommu_remove_mapping. A page of memory is its number, and the
entries are those of vtd.c.
-/
namespace Vtd
open RadixTables

def pteRd : Nat := 0x1
def pteWr : Nat := 0x2
def pteSuperpage : Nat := 0x80
def pteAddrM : Nat := 0x000FFFFFFFFFF000

def pteLink (f : Nat) : Nat := f * 4096 ||| pteRd ||| pteWr

def pteChild (e : Nat) : Nat := (e &&& pteAddrM) / 4096

def pteDown (e : Nat) : Bool := decide (e &&& (pteRd ||| pteWr) ≠ 0) && decide (e &&& pteSuperpage = 0)

def pteFormat : Format := ⟨fun _ => pteLink, pteChild, pteDown, by decide⟩

structure Mem where
  entry : Nat → Nat → Nat
  free : List Nat

structure Domain where
  ptLevels : Nat
  addrwidth : Nat
  maxaddr : Nat
  ptp : Nat
  spsmask : Nat

inductive Fault where
  | noHardware
  | noAgaw
  | range
  | beyond
  | unalignedGpa
  | unalignedHpa
  | unalignedLen
  | mismatch
  | waits
  | endless
deriving DecidableEq

def malloc (s : Mem) : Except Fault (Nat × Mem) :=
  match s.free with
  | [] => .error .waits
  | f :: rest => .ok (f, ⟨clear f s.entry, rest⟩)

def superShift (spsmask gpa hpa len : Nat) : Nat → Nat → Nat
  | 0, spshift => spshift
  | i + 1, spshift =>
      if spsmask.testBit i ∧ gpa % 2 ^ spshift = 0 ∧ hpa % 2 ^ spshift = 0 ∧ 2 ^ spshift ≤ len then
        spshift
      else superShift spsmask gpa hpa len i (spshift - 9)

structure Cursor where
  ptp : Nat
  ptpshift : Nat
  ptpindex : Nat
  nonLeaf : Bool

def vtdWalk (spshift gpa : Nat) : Nat → Cursor → Mem → Except Fault (Cursor × Mem)
  | 0, c, s => .ok ({ c with nonLeaf := false }, s)
  | nlevels + 1, c, s =>
      let ptpshift := 12 + nlevels * 9
      let ptpindex := gpa / 2 ^ ptpshift % 512
      if ptpshift ≤ spshift then .ok (⟨c.ptp, ptpshift, ptpindex, decide (0 < nlevels)⟩, s)
      else if s.entry c.ptp ptpindex = 0 then
        match malloc s with
        | .error fault => .error fault
        | .ok (nlp, s) =>
            let entry := write c.ptp ptpindex (pteLink nlp) s.entry
            vtdWalk spshift gpa nlevels
              ⟨pteChild (entry c.ptp ptpindex), ptpshift, ptpindex, c.nonLeaf⟩ { s with entry := entry }
      else
        vtdWalk spshift gpa nlevels
          ⟨pteChild (s.entry c.ptp ptpindex), ptpshift, ptpindex, c.nonLeaf⟩ s

def leafValue (hpa : Nat) (remove nonLeaf : Bool) : Nat :=
  if remove then 0
  else if nonLeaf then hpa ||| pteRd ||| pteWr ||| pteSuperpage
  else hpa ||| pteRd ||| pteWr

def vtdUpdateMapping (dom : Domain) (gpa hpa len : Nat) (remove : Bool) (s : Mem) :
    Except Fault (Nat × Mem) :=
  if (gpa + len) % 2 ^ 64 ≤ gpa then .error .range
  else if dom.maxaddr < (gpa + len) % 2 ^ 64 then .error .beyond
  else if gpa % 4096 ≠ 0 then .error .unalignedGpa
  else if hpa % 4096 ≠ 0 then .error .unalignedHpa
  else if len % 4096 ≠ 0 then .error .unalignedLen
  else
    match vtdWalk (superShift dom.spsmask gpa hpa len 4 48) gpa dom.ptLevels ⟨dom.ptp, 0, 0, false⟩ s with
    | .error fault => .error fault
    | .ok (c, s) =>
        if gpa % 2 ^ c.ptpshift ≠ 0 then .error .mismatch
        else
          .ok (2 ^ c.ptpshift,
            { s with entry := write c.ptp c.ptpindex (leafValue hpa remove c.nonLeaf) s.entry })

/-- The loop of iommu_create_mapping and iommu_remove_mapping, with as many turns as there are bytes.
    A removal does not have a page of the host to go on from. -/
def mappingLoop (dom : Domain) (remove : Bool) : Nat → Nat → Nat → Nat → Mem → Except Fault Mem
  | 0, _, _, remaining, s => if remaining = 0 then .ok s else .error .endless
  | turns + 1, gpa, hpa, remaining, s =>
      if remaining = 0 then .ok s
      else
        match vtdUpdateMapping dom gpa hpa remaining remove s with
        | .error fault => .error fault
        | .ok (mapped, s) =>
            mappingLoop dom remove turns ((gpa + mapped) % 2 ^ 64)
              (if remove then hpa else (hpa + mapped) % 2 ^ 64)
              ((remaining + 2 ^ 64 - mapped) % 2 ^ 64) s

def iommuCreateMapping (dom : Domain) (gpa hpa len : Nat) (s : Mem) : Except Fault Mem :=
  mappingLoop dom false len gpa hpa len s

def iommuRemoveMapping (dom : Domain) (gpa len : Nat) (s : Mem) : Except Fault Mem :=
  mappingLoop dom true len gpa 0 len s

inductive Call where
  | create (gpa hpa len : Nat)
  | remove (gpa len : Nat)

def call (dom : Domain) (s : Mem) : Call → Except Fault Mem
  | .create gpa hpa len => iommuCreateMapping dom gpa hpa len s
  | .remove gpa len => iommuRemoveMapping dom gpa len s

def gawLoop (maxaddr : Nat) : Nat → Nat → Nat → Option Nat
  | 0, gaw, addr => if addr < maxaddr then none else some gaw
  | left + 1, gaw, addr => if addr < maxaddr then gawLoop maxaddr left (gaw + 1) (2 ^ gaw) else some gaw

def adjusted (gaw : Nat) : Nat :=
  let res := ((gaw : Int) - 12).tmod 9
  min 64 (if res = 0 then gaw else ((gaw : Int) + 9 - res).toNat)

def sagawLoop (supported agaw : Nat) : Nat → Nat → Nat → Option (Nat × Nat)
  | 0, _, _ => none
  | left + 1, i, sagaw =>
      if supported.testBit i ∧ agaw ≤ sagaw then some (2 + i, i)
      else sagawLoop supported agaw left (i + 1) (min 64 (sagaw + 9))

def capSagaw (cap : Nat) : Nat := cap / 2 ^ 8 &&& 0x1F

def vtdCreateDomain (caps : List Nat) (maxaddr : Nat) (s : Mem) : Except Fault (Domain × Mem) :=
  if caps.length = 0 then .error .noHardware
  else
    match gawLoop maxaddr 64 0 0 with
    | none => .error .endless
    | some gaw =>
        let supported := caps.foldl (fun tmp cap => tmp &&& capSagaw cap) 0xFFFFFFFF
        match sagawLoop supported (adjusted gaw) 5 0 30 with
        | none => .error .noAgaw
        | some (ptLevels, addrwidth) =>
            match malloc s with
            | .error fault => .error fault
            | .ok (ptp, s) => .ok (⟨ptLevels, addrwidth, maxaddr, ptp, 0⟩, s)

def vtdFreePtp (ptp level : Nat) (m : Nat → Nat → Nat) : (Nat → Nat → Nat) × List Nat :=
  release pteFormat 512 (level - 1) ptp m

def hwWalk (m : Nat → Nat → Nat) (g : Nat) : Nat → Nat → Option Nat
  | 0, p =>
      let e := m p (g % 512)
      if e &&& (pteRd ||| pteWr) = 0 then none else some (pteChild e)
  | level + 1, p =>
      let e := m p (g / 512 ^ (level + 1) % 512)
      if e &&& (pteRd ||| pteWr) = 0 then none
      else if e &&& pteSuperpage ≠ 0 then
        some (pteChild e / 512 ^ (level + 1) * 512 ^ (level + 1) + g % 512 ^ (level + 1))
      else hwWalk m g level (pteChild e)

def hwLeaf (m : Nat → Nat → Nat) (g : Nat) : Nat → Nat → Option (Nat × Nat)
  | 0, p => some (p, g % 512)
  | level + 1, p =>
      let i := g / 512 ^ (level + 1) % 512
      let e := m p i
      if e &&& (pteRd ||| pteWr) = 0 then none
      else if e &&& pteSuperpage ≠ 0 then some (p, i)
      else hwLeaf m g level (pteChild e)
end Vtd
