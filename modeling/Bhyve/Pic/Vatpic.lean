import Mathlib.Data.List.Basic

/-!
The pair of 8259 interrupt controllers that vatpic.c emulates. Bit n of a register is pin n. A C
int that overflows has no value, so the counts of asserts are Ints. The history of a pair, the
rises of its pins and the requests it accepted, is kept for the statements only.
-/
namespace Pic
open Function

inductive Chip where
  | master
  | slave
deriving DecidableEq

abbrev Pin := Fin 8

def cascade : Pin := ⟨2, by decide⟩
def lowestPin : Pin := ⟨0, by decide⟩
def spuriousPin : Pin := ⟨7, by decide⟩

structure Atpic where
  ready : Bool
  icwNum : Nat
  rdCmdReg : BitVec 8
  aeoi : Bool
  poll : Bool
  rotate : Bool
  sfn : Bool
  irqBase : Nat
  request : BitVec 8
  service : BitVec 8
  mask : BitVec 8
  smm : Bool
  acnt : Pin → Int
  lowprio : Pin
  intrRaised : Bool

/-- A request is accepted as an edge when its pin is not level triggered. -/
inductive Happening where
  | rise (chip : Chip) (pin : Pin)
  | accepted (chip : Chip) (pin : Pin) (edge : Bool)
deriving DecidableEq

/-- `notified` counts what goes to LINT0 of the local APICs and to pin 0 of the I/O APIC. -/
structure Vatpic where
  atpic : Chip → Atpic
  elc : Chip → BitVec 8
  notified : Nat
  history : List Happening

variable (v : Vatpic) (chip : Chip)

def Vatpic.set (a : Atpic) : Vatpic :=
  { v with atpic := update v.atpic chip a }

def Vatpic.note (h : Happening) : Vatpic := { v with history := h :: v.history }

def vatpicInit : Vatpic where
  atpic := fun _ =>
    { ready := false, icwNum := 0, rdCmdReg := 0, aeoi := false, poll := false, rotate := false,
      sfn := false, irqBase := 0, request := 0, service := 0, mask := 0, smm := false,
      acnt := fun _ => 0, lowprio := lowestPin, intrRaised := false }
  elc := fun _ => 0
  notified := 0
  history := []

def withBit (x : BitVec 8) (pin : Pin) : BitVec 8 := x ||| BitVec.twoPow 8 pin
def withoutBit (x : BitVec 8) (pin : Pin) : BitVec 8 := x &&& ~~~BitVec.twoPow 8 pin

def pinAt (lowprio : Pin) (i : Nat) : Pin := ⟨(lowprio.val + 1 + i) % 8, Nat.mod_lt _ (by decide)⟩

/-- ATPIC_PIN_FOREACH: the pins from the highest priority to the lowest. -/
def pinsFrom (lowprio : Pin) : List Pin := (List.range 8).map (pinAt lowprio)

def vatpicGetHighestIsrpin (a : Atpic) : Option Pin :=
  (pinsFrom a.lowprio).find? fun pin =>
    a.service.getLsbD pin && !(a.smm && a.mask.getLsbD pin)

def firstRequest (a : Atpic) (serviced : BitVec 8) : List Pin → Option Pin
  | [] => none
  | pin :: rest =>
      if serviced.getLsbD pin then none
      else if a.request.getLsbD pin && !a.mask.getLsbD pin then some pin
      else firstRequest a serviced rest

/-- What bars pins from interrupting: nothing in special mask mode, and not the cascade in
    special fully nested mode. -/
def Atpic.serviced (a : Atpic) : BitVec 8 :=
  let serviced := if a.sfn then withoutBit a.service cascade else a.service
  if a.smm then 0 else serviced

def vatpicGetHighestIrrpin (a : Atpic) : Option Pin :=
  firstRequest a a.serviced (pinsFrom a.lowprio)

def Atpic.eligible (a : Atpic) : Bool := (vatpicGetHighestIrrpin a).isSome

variable (a : Atpic)

def Atpic.pinstate (level : Bool) (pin : Pin) (newstate : Bool) : Atpic :=
  let oldcnt := a.acnt pin
  let newcnt := if newstate then oldcnt + 1 else oldcnt - 1
  let a := { a with acnt := update a.acnt pin newcnt }
  if (oldcnt = 0 ∧ newcnt = 1) ∨ (0 < newcnt ∧ level = true) then
    { a with request := withBit a.request pin }
  else if oldcnt = 1 ∧ newcnt = 0 then
    if level then { a with request := withoutBit a.request pin } else a
  else a

def Vatpic.level (pin : Pin) : Bool := (v.elc chip).getLsbD pin

def Vatpic.pinstate (v : Vatpic) (chip : Chip) (pin : Pin) (newstate : Bool) : Vatpic :=
  let next := v.set chip ((v.atpic chip).pinstate (v.level chip pin) pin newstate)
  if newstate ∧ (v.atpic chip).acnt pin = 0 then next.note (.rise chip pin) else next

def notifyMaster (v : Vatpic) : Vatpic :=
  let a := v.atpic .master
  if !a.intrRaised && a.eligible then
    { v.set .master { a with intrRaised := true } with notified := v.notified + 1 }
  else v

/-- vatpic_notify_intr, with what the two calls of vatpic_set_pinstate in it call in turn. -/
def notifyWith (again : Vatpic → Vatpic) (v : Vatpic) : Vatpic :=
  let a := v.atpic .slave
  if !a.intrRaised && a.eligible then
    let v := v.set .slave { a with intrRaised := true }
    let v := again (v.pinstate .master cascade true)
    let v := again (v.pinstate .master cascade false)
    notifyMaster v
  else notifyMaster v

def vatpicNotifyIntr : Vatpic → Vatpic := notifyWith (notifyWith id)

def vatpicSetPinstate (pin : Pin) (newstate : Bool) : Vatpic :=
  vatpicNotifyIntr (v.pinstate chip pin newstate)

def icw1Ic4 : Nat := 0
def icw1Sngl : Nat := 1
def icw4Mode8086 : Nat := 0
def icw4Aeoi : Nat := 1
def icw4Sfnm : Nat := 4
def ocw2Eoi : Nat := 5
def ocw2Sl : Nat := 6
def ocw2R : Nat := 7
def ocw3Ris : BitVec 8 := 0x01
def ocw3Rr : Nat := 1
def ocw3P : Nat := 2
def ocw3Smm : Nat := 5
def ocw3Esmm : Nat := 6

def lowPin (val : BitVec 8) : Pin := ⟨val.toNat % 8, Nat.mod_lt _ (by decide)⟩

def vatpicIcw1 (val : BitVec 8) : Atpic × Bool :=
  let a := { a with
    ready := false, icwNum := 1, request := 0, mask := 0, lowprio := spuriousPin,
    rdCmdReg := 0, poll := false, smm := false }
  if val.getLsbD icw1Sngl then (a, false)
  else if !val.getLsbD icw1Ic4 then (a, false)
  else ({ a with icwNum := a.icwNum + 1 }, true)

def vatpicIcw2 (val : BitVec 8) : Atpic × Bool :=
  ({ a with irqBase := (val &&& 0xf8).toNat, icwNum := a.icwNum + 1 }, true)

def vatpicIcw3 (a : Atpic) : Atpic × Bool := ({ a with icwNum := a.icwNum + 1 }, true)

def vatpicIcw4 (val : BitVec 8) : Atpic × Bool :=
  if !val.getLsbD icw4Mode8086 then (a, false)
  else
    let a := if val.getLsbD icw4Aeoi then { a with aeoi := true } else a
    let a := if val.getLsbD icw4Sfnm ∧ chip = .master then { a with sfn := true } else a
    ({ a with icwNum := 0, ready := true }, true)

def vatpicOcw1 (val : BitVec 8) : Atpic × Bool := ({ a with mask := val }, true)

def eoiPin (val : BitVec 8) : Option Pin :=
  if val.getLsbD ocw2Sl then some (lowPin val) else vatpicGetHighestIsrpin a

def vatpicOcw2 (val : BitVec 8) : Atpic × Bool :=
  let a := { a with rotate := val.getLsbD ocw2R }
  if val.getLsbD ocw2Eoi then
    match eoiPin a val with
    | none => (a, true)
    | some isrBit =>
        let a := { a with service := withoutBit a.service isrBit }
        (if a.rotate then { a with lowprio := isrBit } else a, true)
  else if val.getLsbD ocw2Sl ∧ a.rotate then ({ a with lowprio := lowPin val }, true)
  else (a, true)

def vatpicOcw3 (val : BitVec 8) : Atpic × Bool :=
  let a := if val.getLsbD ocw3Esmm then { a with smm := val.getLsbD ocw3Smm } else a
  if val.getLsbD ocw3Rr then
    ({ a with rdCmdReg := val &&& ocw3Ris, poll := val.getLsbD ocw3P }, true)
  else (a, true)

inductive Irqstate where
  | assert
  | deassert
  | pulse
deriving DecidableEq

def chipOf (irq : Int) : Chip := if irq < 8 then .master else .slave
def pinOf (irq : Int) : Pin := ⟨(irq % 8).toNat, by omega⟩

/-- No result stands for EINVAL. -/
def vatpicSetIrqstate (irq : Int) (state : Irqstate) : Option Vatpic :=
  if irq < 0 ∨ 15 < irq then none
  else if !(v.atpic (chipOf irq)).ready then some v
  else
    match state with
    | .assert => some (vatpicSetPinstate v (chipOf irq) (pinOf irq) true)
    | .deassert => some (vatpicSetPinstate v (chipOf irq) (pinOf irq) false)
    | .pulse =>
        some (vatpicSetPinstate (vatpicSetPinstate v (chipOf irq) (pinOf irq) true)
          (chipOf irq) (pinOf irq) false)

def vatpicSetIrqTrigger (irq : Int) (level : Bool) : Option Vatpic :=
  if irq < 0 ∨ 15 < irq then none
  else if level ∧ (irq = 0 ∨ irq = 1 ∨ irq = 2 ∨ irq = 8 ∨ irq = 13) then none
  else
    let elc := v.elc (chipOf irq)
    let elc := if level then withBit elc (pinOf irq) else withoutBit elc (pinOf irq)
    some { v with elc := update v.elc (chipOf irq) elc }

def pendingPin (v : Vatpic) : Chip × Option Pin :=
  let pin := vatpicGetHighestIrrpin (v.atpic .master)
  if pin = some cascade then (.slave, vatpicGetHighestIrrpin (v.atpic .slave)) else (.master, pin)

def vatpicPendingIntr (v : Vatpic) : Nat :=
  let found := pendingPin v
  (v.atpic found.1).irqBase + (found.2.getD spuriousPin).val

def vatpicPinAccepted (pin : Pin) : Atpic :=
  let a := { a with intrRaised := false }
  let a := if a.acnt pin = 0 then { a with request := withoutBit a.request pin } else a
  if a.aeoi then
    if a.rotate then { a with lowprio := pin } else a
  else { a with service := withBit a.service pin }

def Vatpic.accept (pin : Pin) : Vatpic :=
  let next := v.set chip (vatpicPinAccepted (v.atpic chip) pin)
  if (v.atpic chip).request.getLsbD pin then next.note (.accepted chip pin (!v.level chip pin))
  else next

def vatpicIntrAccepted (vector : Nat) : Vatpic :=
  let pin : Pin := ⟨vector % 8, Nat.mod_lt _ (by decide)⟩
  if vector / 8 * 8 = (v.atpic .slave).irqBase then
    vatpicNotifyIntr ((v.accept .slave pin).accept .master cascade)
  else vatpicNotifyIntr (v.accept .master pin)

/-- ICU_IMR_OFFSET. -/
def dataPort (port : Nat) : Bool := port.testBit 0

def vatpicRead (port : Nat) : Vatpic × BitVec 32 :=
  let a := v.atpic chip
  if a.poll then
    let v := v.set chip { a with poll := false }
    match vatpicGetHighestIrrpin (v.atpic chip) with
    | some pin => (v.accept chip pin, 0x80 ||| BitVec.ofNat 32 pin)
    | none => (v, 0)
  else if dataPort port then (v, a.mask.setWidth 32)
  else if a.rdCmdReg = ocw3Ris then (v, a.service.setWidth 32)
  else (v, a.request.setWidth 32)

def Atpic.write (port : Nat) (val : BitVec 8) : Atpic × Bool :=
  if dataPort port then
    match a.icwNum with
    | 2 => vatpicIcw2 a val
    | 3 => vatpicIcw3 a
    | 4 => vatpicIcw4 chip a val
    | _ => vatpicOcw1 a val
  else
    let first := if val.getLsbD 4 then vatpicIcw1 a val else (a, true)
    if first.1.ready then
      if val.getLsbD 3 then vatpicOcw3 first.1 val else vatpicOcw2 first.1 val
    else first

def vatpicWrite (port : Nat) (eax : BitVec 32) : Vatpic × Bool :=
  let done := (v.atpic chip).write chip port (eax.setWidth 8)
  let v := v.set chip done.1
  (if done.1.ready then vatpicNotifyIntr v else v, done.2)

/-- vatpic_master_handler and vatpic_slave_handler. No result stands for an access that is not
    one byte wide. -/
def vatpicHandler (port bytes : Nat) (data : Option (BitVec 32)) : Option Vatpic :=
  if bytes ≠ 1 then none
  else
    match data with
    | none => some (vatpicRead v chip port).1
    | some eax => some (vatpicWrite v chip port eax).1

def vatpicElcHandler (bytes : Nat) (data : Option (BitVec 32)) : Option Vatpic :=
  if bytes ≠ 1 then none
  else
    match data with
    | none => some v
    | some eax =>
        let writable : BitVec 8 :=
          match chip with
          | .master => 0xf8
          | .slave => 0xde
        some { v with elc := update v.elc chip (eax.setWidth 8 &&& writable) }

inductive Event where
  | irq (irq : Int) (state : Irqstate)
  | trigger (irq : Int) (level : Bool)
  | port (chip : Chip) (port bytes : Nat) (data : Option (BitVec 32))
  | elcr (chip : Chip) (bytes : Nat) (data : Option (BitVec 32))
  | acknowledge

def Vatpic.step (v : Vatpic) : Event → Vatpic
  | .irq irq state => (vatpicSetIrqstate v irq state).getD v
  | .trigger irq level => (vatpicSetIrqTrigger v irq level).getD v
  | .port chip port bytes data => (vatpicHandler v chip port bytes data).getD v
  | .elcr chip bytes data => (vatpicElcHandler v chip bytes data).getD v
  | .acknowledge => vatpicIntrAccepted v (vatpicPendingIntr v)

section
variable (x : BitVec 8) (pin other : Pin)

theorem with_bit : (withBit x pin).getLsbD other = (x.getLsbD other || decide (other = pin)) := by
  rw [withBit, BitVec.getLsbD_or, BitVec.getLsbD_twoPow, decide_eq_true pin.isLt, Bool.true_and]
  congr 1
  exact decide_eq_decide.mpr ⟨fun same => Fin.ext same.symm, fun same => congrArg Fin.val same.symm⟩

theorem without_bit :
    (withoutBit x pin).getLsbD other = (x.getLsbD other && !decide (other = pin)) := by
  rw [withoutBit, BitVec.getLsbD_and, BitVec.getLsbD_not, BitVec.getLsbD_twoPow,
    decide_eq_true pin.isLt, decide_eq_true other.isLt, Bool.true_and, Bool.true_and]
  congr 2
  exact decide_eq_decide.mpr ⟨fun same => Fin.ext same.symm, fun same => congrArg Fin.val same.symm⟩

end

section
variable (v : Vatpic) (chip : Chip) (a : Atpic)

@[simp] theorem set_here : (v.set chip a).atpic chip = a := update_self ..

theorem set_there {other : Chip} (apart : other ≠ chip) :
    (v.set chip a).atpic other = v.atpic other := update_of_ne apart ..

@[simp] theorem note_atpic (h : Happening) : (v.note h).atpic = v.atpic := rfl

end

end Pic
