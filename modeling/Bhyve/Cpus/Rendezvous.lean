import Mathlib.Data.Finset.Basic

/-!
vm_smp_rendezvous and the threads that come to vm_handle_rendezvous. What a thread does while it
holds rendezvous_mtx is one step. The log is what a reader of the run sees.
-/
namespace Rendezvous
variable {F A T : Type}

structure Call (F A : Type) where
  id : Nat
  vcpuid : Option Nat
  dest : Finset Nat
  func : F
  arg : A

inductive Cont (F A : Type) where
  | run
  | suspend (vcpuid : Nat)
  | restart (c : Call F A)
  | initiate (c : Call F A)

/-- Where a thread is: outside, about to take the lock, or in a sleep or a suspension check. -/
inductive Pc (F A : Type) where
  | out
  | call (c : Call F A)
  | handle (vcpuid : Option Nat) (k : Cont F A)
  | sleeping (vcpuid : Option Nat) (k : Cont F A)
  | check (vcpuid : Option Nat) (k : Cont F A)
  | suspend (vcpuid : Nat)
  | suspended (vcpuid : Nat)
  | suspendCheck (vcpuid : Nat)

inductive Event (F A : Type) where
  | began (c : Call F A)
  | handled (active : Finset Nat)
  | ran (vcpuid : Nat) (func : F) (arg : A)
  | completed (active : Finset Nat)
  | returned (c : Call F A)
  | failed (c : Call F A)

structure Vm (F A T : Type) where
  maxcpus : Nat
  func : Option (F × A)
  reqCpus : Finset Nat
  doneCpus : Finset Nat
  active : Finset Nat
  suspendedCpus : Finset Nat
  calls : Nat
  pc : T → Pc F A
  log : List (Event F A)

variable [DecidableEq T]

def Vm.goto (t : T) (pc : Pc F A) (s : Vm F A T) : Vm F A T :=
  { s with pc := Function.update s.pc t pc }

def Vm.note (events : List (Event F A)) (s : Vm F A T) : Vm F A T :=
  { s with log := s.log ++ events }

def handleReturn (t : T) (k : Cont F A) (error : Bool) (s : Vm F A T) : Vm F A T :=
  match k, error with
  | .run, _ => s.goto t .out
  | .suspend _, true => s.goto t .out
  | .suspend v, false => s.goto t (.suspend v)
  | .restart c, true => (s.note [.failed c]).goto t .out
  | .restart c, false => s.goto t (.call c)
  | .initiate c, true => (s.note [.failed c]).goto t .out
  | .initiate c, false => (s.note [.returned c]).goto t .out

def runFunc (vcpuid : Option Nat) (func : F) (arg : A) (s : Vm F A T) : Vm F A T :=
  match vcpuid with
  | none => s
  | some v =>
      if v ∈ s.reqCpus ∧ v ∉ s.doneCpus then
        { s.note [.ran v func arg] with doneCpus := insert v s.doneCpus }
      else s

/-- One turn of the loop of vm_handle_rendezvous, from taking the lock to giving it up. -/
def handleTurn (t : T) (vcpuid : Option Nat) (k : Cont F A) (s : Vm F A T) : Vm F A T :=
  match s.func with
  | none => handleReturn t k false s
  | some (func, arg) =>
      let s := { s.note [.handled s.active] with reqCpus := s.reqCpus ∩ s.active }
      let s := runFunc vcpuid func arg s
      if s.reqCpus = s.doneCpus then
        handleReturn t k false { s.note [.completed s.active] with func := none }
      else s.goto t (.sleeping vcpuid k)

def callTurn (t : T) (c : Call F A) (s : Vm F A T) : Vm F A T :=
  match s.func with
  | some _ => s.goto t (.handle c.vcpuid (.restart c))
  | none =>
      { s.note [.began c] with
        reqCpus := c.dest
        doneCpus := ∅
        func := some (c.func, c.arg) }.goto t (.handle c.vcpuid (.initiate c))

/-- The loop of vm_handle_suspend, which looks at rendezvous_func without its lock. -/
def suspendTurn (t : T) (v : Nat) (s : Vm F A T) : Vm F A T :=
  if s.suspendedCpus = s.active then s.goto t .out
  else
    match s.func with
    | none => s.goto t (.suspended v)
    | some _ => s.goto t (.handle (some v) (.suspend v))

def threadTurn (t : T) (flag : Bool) (s : Vm F A T) : Vm F A T :=
  match s.pc t, flag with
  | .out, _ => s
  | .call c, _ => callTurn t c s
  | .handle v k, _ => handleTurn t v k s
  | .sleeping v k, false => handleTurn t v k s
  | .sleeping v k, true => s.goto t (.check v k)
  | .check v k, false => s.goto t (.handle v k)
  | .check _ k, true => handleReturn t k true s
  | .suspend v, _ => suspendTurn t v s
  | .suspended v, false => s.goto t (.suspend v)
  | .suspended v, true => s.goto t (.suspendCheck v)
  | .suspendCheck v, false => s.goto t (.suspend v)
  | .suspendCheck _, true => s.goto t .out

inductive Step (F A T : Type) where
  | activate (vcpuid : Nat)
  | call (t : T) (vcpuid : Option Nat) (dest : Finset Nat) (func : F) (arg : A)
  | enter (t : T) (vcpuid : Nat)
  | suspend (t : T) (vcpuid : Nat)
  | go (t : T) (flag : Bool)

def vmActivateCpu (v : Nat) (s : Vm F A T) : Vm F A T :=
  if v < s.maxcpus then { s with active := insert v s.active } else s

def step (s : Vm F A T) : Step F A T → Vm F A T
  | .activate v => vmActivateCpu v s
  | .go t flag => threadTurn t flag s
  | .call t vcpuid dest func arg =>
      match s.pc t with
      | .out => { s with calls := s.calls + 1 }.goto t (.call ⟨s.calls, vcpuid, dest, func, arg⟩)
      | _ => s
  | .enter t v =>
      match s.pc t with
      | .out => s.goto t (.handle (some v) .run)
      | _ => s
  | .suspend t v =>
      match s.pc t with
      | .out => { s with suspendedCpus := insert v s.suspendedCpus }.goto t (.suspend v)
      | _ => s

def created (maxcpus : Nat) (active : Finset Nat) : Vm F A T :=
  ⟨maxcpus, none, ∅, ∅, active, ∅, 0, fun _ => .out, []⟩

end Rendezvous
