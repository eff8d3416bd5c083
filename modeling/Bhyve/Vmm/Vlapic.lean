import Bhyve.Lib.BitRegisters
import Bhyve.Lib.StepRuns

/-!
The local APIC that vlapic.c emulates, with the interrupts that wait (IRR), those in service
(ISR) and the stack of vectors injected. The hooks of vlapic_ops are not set: an APIC that
the processor virtualizes accepts no vector through this code. Registers are kept for what
these functions read; TPR and PPR hold a byte, since nothing stores more into them. A panic
stops the hypervisor and is the error of the function that raises it.
-/
namespace VmmVlapic
open BitRegisters

structure Vlapic where
  tpr : BitVec 8
  ppr : BitVec 8
  svr : BitVec 32
  svrLast : BitVec 32
  lvtError : BitVec 32
  lvtLast : BitVec 32
  esrPending : BitVec 32
  irr : Nat → BitVec 32
  isr : Nat → BitVec 32
  tmr : Nat → BitVec 32
  isrvecStk : Nat → BitVec 8
  isrvecStkTop : Nat

inductive Panic where
  | invalidVector (vector : Int)
  | corrupted (isrvec : BitVec 8)
  | doesNotSatisfyInvariant
  | outOfSync
  | invalidTop (top : Nat)
  | overflow (top : Nat)
deriving DecidableEq

def isrvecStkSize : Nat := 16 + 1

def apicSvrEnable : Nat := 8
def apicSvrVector : BitVec 32 := 0xff
def apicLvtM : BitVec 32 := 0x10000
def apicLvtDs : BitVec 32 := 0x1000
def apicLvtVector : BitVec 32 := 0xff
def apicEsrSendIllegalVector : BitVec 32 := 0x20
def apicEsrReceiveIllegalVector : BitVec 32 := 0x40

def prio (x : Nat) : Nat := x >>> 4

/-- The error entry of the local vector table has no field for the delivery mode. -/
def lvtWriteHandler (s : Vlapic) : Vlapic :=
  let val := if s.svr.getLsbD apicSvrEnable then s.lvtError else s.lvtError ||| apicLvtM
  let val := val &&& (apicLvtM ||| apicLvtDs ||| apicLvtVector)
  { s with lvtError := val, lvtLast := val }

variable (s : Vlapic)

def writeLvtError (data : BitVec 32) : Vlapic :=
  lvtWriteHandler { s with lvtError := data }

/-- Disabled, the APIC masks its local vector table. -/
def svrWriteHandler (s : Vlapic) : Vlapic :=
  let changed := s.svrLast ^^^ s.svr
  let s := { s with svrLast := s.svr }
  if changed.getLsbD apicSvrEnable && !s.svr.getLsbD apicSvrEnable then
    lvtWriteHandler { s with lvtError := s.lvtError ||| apicLvtM }
  else s

def writeSvr (data : BitVec 32) : Vlapic := svrWriteHandler { s with svr := data }

def fireLvtError (s : Vlapic) : Vlapic :=
  let vec := (s.lvtLast &&& apicLvtVector).toNat
  if s.lvtLast &&& apicLvtM ≠ 0 then s
  else if vec < 16 then { s with esrPending := s.esrPending ||| apicEsrSendIllegalVector }
  else if s.svr.getLsbD apicSvrEnable then { s with irr := setBit s.irr vec }
  else s

def setError (mask : BitVec 32) : Vlapic :=
  fireLvtError { s with esrPending := s.esrPending ||| mask }

/-- The trigger mode is only compared with the TMR, for the trace. -/
def setIntrReady (vector : Int) (_level : Bool) : Except Panic (Bool × Vlapic) :=
  if ¬ (0 ≤ vector ∧ vector < 256) then .error (.invalidVector vector)
  else if !s.svr.getLsbD apicSvrEnable then .ok (false, s)
  else if vector < 16 then .ok (true, setError s apicEsrReceiveIllegalVector)
  else .ok (true, { s with irr := setBit s.irr vector.toNat })

def checkPriorities (stk : Nat → BitVec 8) : (count i : Nat) → (lastprio : Int) →
    Except Panic Unit
  | 0, _, _ => .ok ()
  | count + 1, i, lastprio =>
      let curprio : Int := prio (stk i).toNat
      if curprio ≤ lastprio then .error .doesNotSatisfyInvariant
      else checkPriorities stk count (i + 1) curprio

def checkInService (isr : Nat → BitVec 32) (stk : Nat → BitVec 8) (top : Nat) :
    (count vector i : Nat) → Except Panic Unit
  | 0, _, _ => .ok ()
  | count + 1, vector, i =>
      if bit isr vector then
        if top < i ∨ (stk i).toNat ≠ vector then .error .outOfSync
        else checkInService isr stk top count (vector + 1) (i + 1)
      else checkInService isr stk top count (vector + 1) i

def updatePpr (s : Vlapic) : Except Panic Vlapic :=
  let isrvec := s.isrvecStk s.isrvecStkTop
  if s.isrvecStkTop = 0 ∧ isrvec ≠ 0 then .error (.corrupted isrvec)
  else
    match checkPriorities s.isrvecStk s.isrvecStkTop 1 (-1) with
    | .error p => .error p
    | .ok () =>
        match checkInService s.isr s.isrvecStk s.isrvecStkTop 256 0 1 with
        | .error p => .error p
        | .ok () =>
            let ppr := if prio isrvec.toNat ≤ prio s.tpr.toNat then s.tpr else isrvec &&& 0xf0
            .ok { s with ppr := ppr }

def processEoi (s : Vlapic) : Except Panic (Option Nat × Vlapic) :=
  match highest s.isr 8 with
  | none => .ok (none, s)
  | some vector =>
      if s.isrvecStkTop = 0 then .error (.invalidTop s.isrvecStkTop)
      else
        match updatePpr { s with isr := clearBit s.isr vector,
                                 isrvecStkTop := s.isrvecStkTop - 1 } with
        | .error p => .error p
        | .ok s => .ok (if bit s.tmr vector then some vector else none, s)

def setTpr (val : BitVec 8) : Except Panic Vlapic :=
  if s.tpr ≠ val then updatePpr { s with tpr := val } else .ok s

def setCr8 (val : BitVec 64) : Except Panic (Bool × Vlapic) :=
  if val &&& ~~~0xf ≠ 0 then .ok (true, s)
  else
    match setTpr s ((val <<< 4).setWidth 8) with
    | .error p => .error p
    | .ok s => .ok (false, s)

/-- The processor has written the TPR of the APIC page by itself. -/
def syncTpr (shadow : BitVec 8) : Except Panic Vlapic :=
  updatePpr { s with tpr := shadow }

def setTmr (vector : BitVec 8) (level : Bool) : Vlapic :=
  { s with tmr := if level then setBit s.tmr vector.toNat else clearBit s.tmr vector.toNat }

def pendingIntr (s : Vlapic) : Except Panic (Option Nat × Vlapic) :=
  match updatePpr s with
  | .error p => .error p
  | .ok s =>
      match highest s.irr 8 with
      | none => .ok (none, s)
      | some vector => .ok (if prio s.ppr.toNat < prio vector then some vector else none, s)

def intrAccepted (vector : Nat) : Except Panic Vlapic :=
  let top := s.isrvecStkTop + 1
  if isrvecStkSize ≤ top then .error (.overflow top)
  else
    .ok { s with
      irr := clearBit s.irr vector
      isr := setBit s.isr vector
      isrvecStkTop := top
      isrvecStk := Function.update s.isrvecStk top (BitVec.ofNat 8 vector) }

def reset : Vlapic :=
  lvtWriteHandler {
    tpr := 0
    ppr := 0
    svr := apicSvrVector
    svrLast := apicSvrVector
    lvtError := apicLvtM
    lvtLast := 0
    esrPending := 0
    irr := fun _ => 0
    isr := fun _ => 0
    tmr := fun _ => 0
    isrvecStk := fun _ => 0
    isrvecStkTop := 0 }

/-- What happens to an APIC. A vector that pendingIntr returned is at hand until the virtual
    processor does something else; other threads may post interrupts meanwhile. -/
inductive Event where
  | intrReady (vector : Int) (level : Bool)
  | writeTpr (data : BitVec 64)
  | writeCr8 (val : BitVec 64)
  | shadowTpr (val : BitVec 8)
  | writeEoi
  | writeSvr (data : BitVec 32)
  | writeLvtError (data : BitVec 32)
  | setTmr (vector : BitVec 8) (level : Bool)
  | pendingIntr
  | accept

structure Attached where
  vlapic : Vlapic
  returned : Option Nat

def step (a : Attached) : Event → Except Panic Attached
  | .intrReady vector level =>
      (setIntrReady a.vlapic vector level).map fun done => ⟨done.2, a.returned⟩
  | .writeTpr data => (setTpr a.vlapic (data.setWidth 8)).map fun s => ⟨s, none⟩
  | .writeCr8 val => (setCr8 a.vlapic val).map fun done => ⟨done.2, none⟩
  | .shadowTpr val => (syncTpr a.vlapic val).map fun s => ⟨s, none⟩
  | .writeEoi => (processEoi a.vlapic).map fun done => ⟨done.2, none⟩
  | .writeSvr data => .ok ⟨writeSvr a.vlapic data, none⟩
  | .writeLvtError data => .ok ⟨writeLvtError a.vlapic data, none⟩
  | .setTmr vector level => .ok ⟨setTmr a.vlapic vector level, none⟩
  | .pendingIntr => (pendingIntr a.vlapic).map fun done => ⟨done.2, done.1⟩
  | .accept =>
      match a.returned with
      | none => .ok a
      | some vector => (intrAccepted a.vlapic vector).map fun s => ⟨s, none⟩

end VmmVlapic
