import Bhyve.Lib.StepRuns
import Bhyve.Pci.Config

/-!
INTx lines of PCI devices: pci_lintr_assert, pci_lintr_deassert and pci_lintr_update of pci_emul.c
and the interrupt router of pci_irq.c. A step is what a thread does under one lock, so that
a call of one device can stop between the lock of the device and that of the router.
-/
namespace Pci
open ByteMemory

inductive LintrStat where
  | idle
  | asserted
  | pending
deriving DecidableEq

structure Pirq where
  reg : BitVec 8
  activeCount : Int

inductive Call where
  | isa (on : Bool) (pirq : Fin 8) (irq : Nat) (ioapicIrq : Option Nat)
  | ioapic (on : Bool) (irq : Nat)

/-- How far the thread that holds the lock of a device has come: pci_irq_assert or pci_irq_deassert
    is to be called, or only its last call to the kernel is left. A deassertion that an update
    makes leaves the line pending. -/
inductive Phase where
  | free
  | asserting
  | assertingLine
  | deasserting (suspends : Bool)
  | deassertingLine (suspends : Bool)
deriving DecidableEq

structure Route where
  pirqPin : Option (Fin 8)
  ioapicIrq : Nat

/-- A device, the thread inside its lock, the writes to it that have yet to call
    pci_lintr_update, and whether it last asserted its line. -/
structure Line where
  dev : Devinst
  lintr : LintrStat
  phase : Phase
  updates : Nat
  wanted : Bool

structure Lines (D : Type) where
  line : D → Line
  pirqs : Fin 8 → Pirq
  log : List Call

def pirqDis : BitVec 8 := 0x80
def pirqIrq : BitVec 8 := 0x0f

def permittedIrqs : BitVec 16 := 0xdef8

def irqOf (reg : BitVec 8) : Nat := (reg &&& pirqIrq).toNat

def pirqValidIrq (reg : BitVec 8) : Bool :=
  decide (reg &&& pirqDis = 0) && permittedIrqs.getLsbD (irqOf reg)

def pciLintrPermitted (d : Devinst) : Bool :=
  !(d.msi.enabled || d.msix.enabled || d.command.getLsbD cmdIntxDis)

def pciLintrAssert (l : Line) : Line :=
  let l := { l with wanted := true }
  if l.lintr = .idle then
    if pciLintrPermitted l.dev then { l with lintr := .asserted, phase := .asserting }
    else { l with lintr := .pending }
  else l

def pciLintrDeassert (l : Line) : Line :=
  let l := { l with wanted := false }
  if l.lintr = .asserted then { l with lintr := .idle, phase := .deasserting false }
  else if l.lintr = .pending then { l with lintr := .idle }
  else l

def pciLintrUpdate (l : Line) : Line :=
  let l := { l with updates := l.updates - 1 }
  if l.lintr = .asserted ∧ pciLintrPermitted l.dev = false then
    { l with phase := .deasserting true }
  else if l.lintr = .pending ∧ pciLintrPermitted l.dev = true then
    { l with lintr := .asserted, phase := .asserting }
  else l

def leave (suspends : Bool) (l : Line) : Line :=
  { l with lintr := if suspends then .pending else l.lintr, phase := .free }

def cfgPart (coff bytes : Nat) (val : BitVec 32) (l : Line) : Line :=
  match pciCfgwrite l.dev coff bytes val with
  | none => l
  | some (dev, actions) =>
      { l with dev := dev, updates := l.updates + if Action.lintrUpdate ∈ actions then 1 else 0 }

section
variable {D : Type} [DecidableEq D] (route : D → Route)

def put (d : D) (l : Line) (s : Lines D) : Lines D := { s with line := Function.update s.line d l }

/-- The part of pci_irq_assert and of pci_irq_deassert under the lock of the router, or all of it
    without a router pin. -/
def irqPart (on suspends : Bool) (rest : Phase) (d : D) (s : Lines D) : Lines D :=
  let l := s.line d
  match (route d).pirqPin with
  | none => put d (leave suspends l) { s with log := s.log ++ [.ioapic on (route d).ioapicIrq] }
  | some p =>
      let pirq := s.pirqs p
      let count := if on then pirq.activeCount + 1 else pirq.activeCount - 1
      let s := { s with pirqs := Function.update s.pirqs p { pirq with activeCount := count } }
      if count = (if on then 1 else 0) ∧ pirqValidIrq pirq.reg = true then
        put d (leave suspends l)
          { s with log := s.log ++ [.isa on p (irqOf pirq.reg) (some (route d).ioapicIrq)] }
      else put d { l with phase := rest } s

def linePart (on suspends : Bool) (d : D) (s : Lines D) : Lines D :=
  put d (leave suspends (s.line d)) { s with log := s.log ++ [.ioapic on (route d).ioapicIrq] }

def pirqWrite (p : Fin 8) (val : BitVec 8) (s : Lines D) : Lines D :=
  let pirq := s.pirqs p
  let reg := val &&& (pirqDis ||| pirqIrq)
  let held (reg : BitVec 8) : Bool := decide (pirq.activeCount ≠ 0) && pirqValidIrq reg
  if pirq.reg ≠ reg then
    { s with
      pirqs := Function.update s.pirqs p { pirq with reg := reg }
      log := s.log ++ (if held pirq.reg then [.isa false p (irqOf pirq.reg) none] else []) ++
        (if held reg then [.isa true p (irqOf reg) none] else []) }
  else s

inductive LineStep (D : Type) where
  | assert (d : D)
  | deassert (d : D)
  | update (d : D)
  | irq (d : D)
  | line (d : D)
  | cfg (d : D) (coff bytes : Nat) (val : BitVec 32)
  | pirq (p : Fin 8) (val : BitVec 8)

/-- A thread that has to wait for a lock, or that is not there, does nothing. -/
def lineStep (s : Lines D) : LineStep D → Lines D
  | .assert d => if (s.line d).phase = .free then put d (pciLintrAssert (s.line d)) s else s
  | .deassert d => if (s.line d).phase = .free then put d (pciLintrDeassert (s.line d)) s else s
  | .update d =>
      if (s.line d).phase = .free ∧ (s.line d).updates ≠ 0 then put d (pciLintrUpdate (s.line d)) s
      else s
  | .irq d =>
      match (s.line d).phase with
      | .asserting => irqPart route true false .assertingLine d s
      | .deasserting suspends => irqPart route false suspends (.deassertingLine suspends) d s
      | _ => s
  | .line d =>
      match (s.line d).phase with
      | .assertingLine => linePart route true false d s
      | .deassertingLine suspends => linePart route false suspends d s
      | _ => s
  | .cfg d coff bytes val => put d (cfgPart coff bytes val (s.line d)) s
  | .pirq p val => pirqWrite p val s

def Lines.start (dev : D → Devinst) (reg : Fin 8 → BitVec 8) : Lines D where
  line := fun d => ⟨dev d, .idle, .free, 0, false⟩
  pirqs := fun p => ⟨reg p, 0⟩
  log := []

end
end Pci
