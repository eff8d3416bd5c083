import Mathlib.Data.BitVec

/-!
The interrupt registers of the network adapter, its throttle timer, and the INTx line of its PCI
function.
-/
namespace E82545

inductive LintrState where
  | idle
  | asserted
  | pending
deriving DecidableEq

structure PciDevinst where
  lintr : LintrState
  intxDis : Bool

def pciLintrPermitted (pi : PciDevinst) : Bool := !pi.intxDis

def pciLintrAssert (pi : PciDevinst) : PciDevinst :=
  if pi.lintr = .idle then
    { pi with lintr := if pciLintrPermitted pi then .asserted else .pending }
  else pi

def pciLintrDeassert (pi : PciDevinst) : PciDevinst :=
  if pi.lintr = .asserted then { pi with lintr := .idle }
  else if pi.lintr = .pending then { pi with lintr := .idle }
  else pi

def regIcr : BitVec 32 := 0x00c0
def regItr : BitVec 32 := 0x00c4
def regIcs : BitVec 32 := 0x00c8
def regIms : BitVec 32 := 0x00d0
def regImc : BitVec 32 := 0x00d8

def icrTxdw : BitVec 32 := 0x00000001
def icrTxqe : BitVec 32 := 0x00000002
def icrRxdmt0 : BitVec 32 := 0x00000010
def icrRxt0 : BitVec 32 := 0x00000080
def icrSrpd : BitVec 32 := 0x00010000

structure Intr where
  pi : PciDevinst
  mevpitr : Option (BitVec 32)
  irqAsserted : Bool
  icr : BitVec 32
  itr : BitVec 32
  ics : BitVec 32
  ims : BitVec 32
  imc : BitVec 32

variable (s : Intr)

def Intr.unmasked : BitVec 32 := s.icr &&& s.ims

def Intr.lineAsserted : Prop := s.pi.lintr = .asserted

instance (s : Intr) : Decidable s.lineAsserted := inferInstanceAs (Decidable (_ = _))

def itrCallback (s : Intr) : Intr :=
  if s.unmasked ≠ 0 ∧ s.irqAsserted = false then
    { s with irqAsserted := true, pi := pciLintrAssert s.pi }
  else { s with mevpitr := none }

def raise (new : BitVec 32) : Intr :=
  if new = 0 then s
  else if s.mevpitr ≠ none then s
  else if s.irqAsserted = false then
    { s with
      irqAsserted := true
      pi := pciLintrAssert s.pi
      mevpitr := if s.itr ≠ 0 then some ((s.itr + 3905) / 3906) else none }
  else s

def icrAssert (bits : BitVec 32) : Intr :=
  raise { s with icr := s.icr ||| bits } (bits &&& ~~~s.icr &&& s.ims)

def imsChange (bits : BitVec 32) : Intr :=
  raise { s with ims := s.ims ||| bits } (bits &&& s.icr &&& ~~~s.ims)

def lower (s : Intr) : Intr :=
  if s.irqAsserted = true ∧ s.unmasked = 0 then
    { s with pi := pciLintrDeassert s.pi, irqAsserted := false }
  else s

def icrDeassert (bits : BitVec 32) : Intr := lower { s with icr := s.icr &&& ~~~bits }

def intrWrite (offset value : BitVec 32) : Intr :=
  if offset = regIcr then icrDeassert s value
  else if offset = regItr then { s with itr := value }
  else if offset = regIcs then icrAssert { s with ics := value } value
  else if offset = regIms then imsChange s value
  else if offset = regImc then { s with imc := value, ims := s.ims &&& ~~~value }
  else s

def intrRead (offset : BitVec 32) : BitVec 32 × Intr :=
  if offset = regIcr then (s.icr, icrDeassert { s with icr := 0 } (BitVec.allOnes 32))
  else if offset = regItr then (s.itr, s)
  else if offset = regIms then (s.ims, s)
  else (0, s)

def intrReset (s : Intr) : Intr :=
  { s with
    pi := if s.irqAsserted then pciLintrDeassert s.pi else s.pi
    icr := 0
    itr := 250
    ics := 0
    ims := 0
    imc := 0 }

def intrInit : Intr := intrReset ⟨⟨.idle, false⟩, none, false, 0, 0, 0, 0, 0⟩
end E82545
