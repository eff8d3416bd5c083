import Mathlib.Data.Finset.Basic

/-!
vm_handle_hlt as the vcpus run it side by side, each access to what they share a step of its own,
with the calls that change it under them.
-/
namespace Hlt

inductive SuspendHow where
  | reset
  | poweroff
  | halt
  | triplefault
deriving DecidableEq

inductive Pc where
  | events
  | nmi
  | intr
  | debugged
  | mark
  | compare
  | sleep
  | check
  | clear
  | unlock
  | request
  | ret
deriving DecidableEq

structure Frame where
  intrDisabled : Bool
  vcpuHalted : Bool
  vmHalted : Bool
  pc : Pc

structure Vm where
  maxcpus : Nat
  haltDetectionEnabled : Bool
  haltedCpus : Finset Nat
  activeCpus : Finset Nat
  suspendedCpus : Finset Nat
  debugCpus : Finset Nat
  nmiPending : Finset Nat
  reqidle : Finset Nat
  rendezvous : Bool
  suspend : Option SuspendHow
  frame : Nat → Option Frame

inductive Fault where
  | alreadyHalted
deriving DecidableEq

def Vm.setFrame (v : Nat) (f : Option Frame) (s : Vm) : Vm :=
  { s with frame := Function.update s.frame v f }

def Vm.goto (v : Nat) (f : Frame) (pc : Pc) (s : Vm) : Vm := s.setFrame v (some { f with pc := pc })

def vmSuspend (how : SuspendHow) (s : Vm) : Vm :=
  match s.suspend with
  | none => { s with suspend := some how }
  | some _ => s

/-- The flag stands for what the thread finds: an interrupt or a need to yield, a need for a
    suspension check where it wakes, and the error of that check. -/
def hltTurn (v : Nat) (f : Frame) (flag : Bool) (s : Vm) : Vm :=
  match f.pc with
  | .events =>
      if s.rendezvous ∨ s.suspend.isSome ∨ v ∈ s.reqidle then s.goto v f .clear else s.goto v f .nmi
  | .nmi => if v ∈ s.nmiPending then s.goto v f .clear else s.goto v f .intr
  | .intr => if flag then s.goto v f .clear else s.goto v f .debugged
  | .debugged => if v ∈ s.debugCpus then s.goto v f .clear else s.goto v f .mark
  | .mark =>
      if f.intrDisabled = false then s.goto v f .sleep
      else if f.vcpuHalted = false ∧ s.haltDetectionEnabled then
        { s with haltedCpus := insert v s.haltedCpus }.goto v { f with vcpuHalted := true } .compare
      else s.goto v f .compare
  | .compare =>
      if s.haltedCpus = s.activeCpus then s.goto v { f with vmHalted := true } .clear
      else s.goto v f .sleep
  | .sleep => if flag then s.goto v f .check else s.goto v f .events
  | .check => if flag then s.setFrame v none else s.goto v f .events
  | .clear =>
      if f.vcpuHalted then { s with haltedCpus := s.haltedCpus.erase v }.goto v f .unlock
      else s.goto v f .unlock
  | .unlock => if f.vmHalted then s.goto v f .request else s.goto v f .ret
  | .request => (vmSuspend .halt s).goto v f .ret
  | .ret => s.setFrame v none

def vmInjectNmi (v : Nat) (s : Vm) : Vm :=
  if v < s.maxcpus then { s with nmiPending := insert v s.nmiPending } else s

def vmActivateCpu (v : Nat) (s : Vm) : Vm :=
  if v < s.maxcpus ∧ v ∉ s.activeCpus then { s with activeCpus := insert v s.activeCpus } else s

def vmInit (s : Vm) : Vm :=
  { s with
    activeCpus := ∅
    debugCpus := ∅
    suspend := none
    suspendedCpus := ∅
    nmiPending := ∅
    reqidle := ∅ }

def vmReinit (s : Vm) : Vm := if s.suspendedCpus = s.activeCpus then vmInit s else s

inductive Step where
  | hlt (v : Nat) (intrDisabled : Bool)
  | go (v : Nat) (flag : Bool)
  | injectNmi (v : Nat)
  | nmiClear (v : Nat)
  | activate (v : Nat)
  | suspend (how : SuspendHow)
  | reinit
  | suspended (v : Nat)
  | debug (v : Nat) (on : Bool)
  | reqidle (v : Nat) (on : Bool)
  | rendezvous (on : Bool)

def setBit (v : Nat) (on : Bool) (cpus : Finset Nat) : Finset Nat :=
  if on then insert v cpus else cpus.erase v

/-- A vcpu that is in vm_handle_hlt does not execute it again, and takes no NMI. -/
def step (s : Vm) : Step → Except Fault Vm
  | .hlt v intrDisabled =>
      match s.frame v with
      | some _ => .ok s
      | none =>
          if v ∈ s.haltedCpus then .error .alreadyHalted
          else .ok (s.setFrame v (some ⟨intrDisabled, false, false, .events⟩))
  | .go v flag =>
      match s.frame v with
      | some f => .ok (hltTurn v f flag s)
      | none => .ok s
  | .injectNmi v => .ok (vmInjectNmi v s)
  | .nmiClear v =>
      match s.frame v with
      | some _ => .ok s
      | none => .ok { s with nmiPending := s.nmiPending.erase v }
  | .activate v => .ok (vmActivateCpu v s)
  | .suspend how => .ok (vmSuspend how s)
  | .reinit => .ok (vmReinit s)
  | .suspended v => .ok { s with suspendedCpus := insert v s.suspendedCpus }
  | .debug v on => .ok { s with debugCpus := setBit v on s.debugCpus }
  | .reqidle v on => .ok { s with reqidle := setBit v on s.reqidle }
  | .rendezvous on => .ok { s with rendezvous := on }

def created (maxcpus : Nat) (haltDetectionEnabled : Bool) : Vm :=
  ⟨maxcpus, haltDetectionEnabled, ∅, ∅, ∅, ∅, ∅, ∅, false, none, fun _ => none⟩

end Hlt
