import Bhyve.Lib.StepRuns
import Mathlib.Data.List.FinRange

/-!
The high precision event timer that vhpet.c emulates. Its calls to the I/O APIC and to the local
APICs are kept in a list in their order. The registers have the numbers of the HPET specification.
-/
namespace Hpet
open StepRuns

def vhpetBase : BitVec 64 := 0xfed00000
def hpetFreq : Nat := 16777216
def fsPerS : Nat := 1000000000000000
def vhpetNumTimers : Nat := 8

abbrev TimerNum := Fin vhpetNumTimers

def hpetCapabilities : BitVec 32 := 0x0
def hpetCapCountSize : BitVec 64 := 0x2000
def hpetConfig : BitVec 32 := 0x10
def hpetCnfLegRt : BitVec 64 := 0x2
def hpetCnfEnable : BitVec 64 := 0x1
def hpetIsr : BitVec 32 := 0x20
def hpetMainCounter : BitVec 32 := 0xf0

def hpetTimerCapCnf (i : TimerNum) : BitVec 32 := BitVec.ofNat 32 i * 0x20 + 0x100
def hpetTimerComparator (i : TimerNum) : BitVec 32 := BitVec.ofNat 32 i * 0x20 + 0x108
def hpetTimerFsbVal (i : TimerNum) : BitVec 32 := BitVec.ofNat 32 i * 0x20 + 0x110
def hpetTimerFsbAddr (i : TimerNum) : BitVec 32 := BitVec.ofNat 32 i * 0x20 + 0x114

def hpetTcapIntRoute : BitVec 64 := 0xffffffff00000000
def hpetTcapFsbIntDel : BitVec 64 := 0x8000
def hpetTcnfFsbEn : BitVec 64 := 0x4000
def hpetTcnfIntRoute : BitVec 64 := 0x3e00
def hpetTcnf32mode : BitVec 64 := 0x100
def hpetTcnfValSet : BitVec 64 := 0x40
def hpetTcapSize : BitVec 64 := 0x20
def hpetTcapPerInt : BitVec 64 := 0x10
def hpetTcnfType : BitVec 64 := 0x8
def hpetTcnfIntEnb : BitVec 64 := 0x4
def hpetTcnfIntType : BitVec 64 := 0x2

def hpetTcapRoMask : BitVec 64 :=
  hpetTcapIntRoute ||| hpetTcapFsbIntDel ||| hpetTcapSize ||| hpetTcapPerInt

/-- The ticks of the uptime in one of the counter: 2^32 in a second. -/
def freqSbt : Int := 4294967296 / hpetFreq

structure Callout where
  active : Bool
  pending : Bool

structure Timer where
  capConfig : BitVec 64
  msireg : BitVec 64
  compval : BitVec 32
  comprate : BitVec 32
  callout : Callout
  calloutSbt : Int

inductive Call where
  | assert (pin : Nat)
  | deassert (pin : Nat)
  | pulse (pin : Nat)
  | msi (addr msg : BitVec 64)
  deriving DecidableEq

structure Vhpet where
  config : BitVec 64
  isr : BitVec 64
  countbase : BitVec 32
  countbaseSbt : Int
  timer : TimerNum → Timer
  calls : List Call

inductive Fault where
  | assertion
  | panic

def vhpetCapabilities : BitVec 64 :=
  ((0x8086 <<< 16 ||| BitVec.ofNat 64 (vhpetNumTimers - 1) <<< 8 ||| 1) &&& ~~~hpetCapCountSize
    &&& 0xffffffff) ||| BitVec.ofNat 64 (fsPerS / hpetFreq) <<< 32

def updateRegister (reg data mask : BitVec 64) : BitVec 64 := (reg &&& ~~~mask) ||| (data &&& mask)

variable (t : Timer)

def Timer.msiEnabled : Bool :=
  decide (t.capConfig &&& (hpetTcapFsbIntDel ||| hpetTcnfFsbEn) = hpetTcapFsbIntDel ||| hpetTcnfFsbEn)

def Timer.ioapicPin : Nat :=
  if t.msiEnabled then 0 else ((t.capConfig &&& hpetTcnfIntRoute) >>> 9).toNat

def Timer.periodic : Bool := decide (t.capConfig &&& hpetTcnfType ≠ 0)

def Timer.interruptEnabled : Bool := decide (t.capConfig &&& hpetTcnfIntEnb ≠ 0)

def Timer.edgeTrig : Except Fault Bool :=
  if t.msiEnabled then .error .assertion else .ok (decide (t.capConfig &&& hpetTcnfIntType = 0))

def Timer.allowedIrqs : BitVec 32 := (t.capConfig >>> 32).setWidth 32

def Vhpet.counterEnabled (v : Vhpet) : Bool := decide (v.config &&& hpetCnfEnable ≠ 0)

variable (v : Vhpet)

def Vhpet.isrSet (n : TimerNum) : Bool := v.isr.getLsbD n

variable (n : TimerNum)

def Vhpet.store (t : Timer) : Vhpet :=
  { v with timer := Function.update v.timer n t }

def Vhpet.raise (pin : Nat) : Vhpet :=
  { v with isr := v.isr ||| BitVec.twoPow 64 n, calls := v.calls ++ [.assert pin] }

def Vhpet.lower (pin : Nat) : Vhpet :=
  { v with isr := v.isr &&& ~~~BitVec.twoPow 64 n, calls := v.calls ++ [.deassert pin] }

def Vhpet.call (c : Call) : Vhpet := { v with calls := v.calls ++ [c] }

def vhpetCounter (now : Int) (v : Vhpet) (nowptr : Bool) : Except Fault (BitVec 32) :=
  if v.counterEnabled then
    if now - v.countbaseSbt < 0 then .error .assertion
    else .ok (v.countbase + BitVec.ofInt 32 ((now - v.countbaseSbt).tdiv freqSbt))
  else if nowptr then .error .assertion
  else .ok v.countbase

def vhpetTimerClearIsr (n : TimerNum) : Except Fault Vhpet :=
  if v.isrSet n then
    if (v.timer n).ioapicPin = 0 then .error .assertion
    else .ok (v.lower n (v.timer n).ioapicPin)
  else .ok v

def vhpetTimerInterrupt (n : TimerNum) : Except Fault Vhpet :=
  let t := v.timer n
  if !t.interruptEnabled then .ok v
  else if v.isrSet n then .ok v
  else if t.msiEnabled then .ok (v.call (.msi (t.msireg >>> 32) (t.msireg &&& 0xffffffff)))
  else if t.ioapicPin = 0 then .ok v
  else do
    let edge ← t.edgeTrig
    if edge then .ok (v.call (.pulse t.ioapicPin)) else .ok (v.raise n t.ioapicPin)

variable (t : Timer)

def vhpetAdjustCompval (counter : BitVec 32) : Except Fault Timer :=
  if t.comprate = 0 then .error .assertion
  else .ok { t with
    compval := t.compval + ((counter - t.compval) / t.comprate + 1) * t.comprate }

def calloutReset (counter : BitVec 32) (now : Int) : Timer :=
  { t with
    calloutSbt := now + (t.compval - counter).toNat * freqSbt
    callout := ⟨true, true⟩ }

def compvalAhead (counter : BitVec 32) : Except Fault Timer :=
  if t.comprate ≠ 0 then vhpetAdjustCompval t counter else .ok t

def vhpetStartTimer (counter : BitVec 32) (now : Int) : Except Fault Vhpet := do
  let t ← compvalAhead (v.timer n) counter
  .ok (v.store n (calloutReset t counter now))

def vhpetStopTimer (now : Int) : Except Fault Vhpet :=
  let stopped := v.store n { v.timer n with callout := ⟨false, false⟩ }
  if (v.timer n).calloutSbt < now then vhpetTimerInterrupt stopped n else .ok stopped

def vhpetHandler (now : Int) (v : Vhpet) (n : TimerNum) : Except Fault Vhpet :=
  let callout := (v.timer n).callout
  if callout.pending || !callout.active then .ok v
  else
    let v := v.store n { v.timer n with callout := { callout with active := false } }
    if !v.counterEnabled then .error .panic
    else do
      let counter ← vhpetCounter now v true
      let v ← vhpetStartTimer v n counter now
      vhpetTimerInterrupt v n

def vhpetStartCounting (now : Int) : Except Fault Vhpet :=
  attempts (fun v n => vhpetStartTimer v n v.countbase v.countbaseSbt) { v with countbaseSbt := now }
    (List.finRange vhpetNumTimers)

def vhpetStopCounting (counter : BitVec 32) (now : Int) : Except Fault Vhpet :=
  attempts (fun v n => vhpetStopTimer v n now) { v with countbase := counter }
    (List.finRange vhpetNumTimers)

def configWritten (data mask : BitVec 64) : BitVec 64 :=
  (updateRegister t.capConfig data mask &&& ~~~(hpetTcapRoMask ||| hpetTcnf32mode)) |||
    (t.capConfig &&& hpetTcapRoMask)

def routeChecked (t : Timer) : Timer :=
  if t.ioapicPin ≠ 0 ∧ t.allowedIrqs.getLsbD t.ioapicPin = false then
    { t with capConfig := t.capConfig &&& ~~~hpetTcnfIntRoute }
  else t

def rateChecked (t : Timer) : Timer := if !t.periodic then { t with comprate := 0 } else t

def clearIsr (oldPin : Nat) : Except Fault Bool :=
  if !t.interruptEnabled then .ok true
  else if t.msiEnabled then .ok true
  else do
    let edge ← t.edgeTrig
    .ok (edge || decide (t.ioapicPin ≠ oldPin))

def notLevel (t : Timer) : Except Fault Bool := if t.msiEnabled then .ok true else t.edgeTrig

def reconfigured (data mask : BitVec 64) : Timer :=
  rateChecked (routeChecked { t with capConfig := configWritten t data mask })

def vhpetTimerUpdateConfig (data mask : BitVec 64) : Except Fault Vhpet := do
  let old := v.timer n
  let edge ← notLevel old
  if edge && v.isrSet n then .error .panic
  else if configWritten old data mask = old.capConfig then .ok v
  else
    let v := v.store n (reconfigured old data mask)
    if v.isrSet n then
      if old.ioapicPin = 0 then .error .assertion
      else do
        let clear ← clearIsr (v.timer n) old.ioapicPin
        .ok (if clear then v.lower n old.ioapicPin else v)
    else .ok v

def comparatorWritten (data mask : BitVec 64) : Except Fault Timer :=
  if t.periodic then
    let rate := (updateRegister (t.comprate.setWidth 64) data mask).setWidth 32
    .ok { t with
      comprate := rate
      compval := if t.capConfig &&& hpetTcnfValSet ≠ 0 then rate else t.compval }
  else if t.comprate ≠ 0 then .error .assertion
  else .ok { t with compval := (updateRegister (t.compval.setWidth 64) data mask).setWidth 32 }

def vhpetTimerComparator (now : Int) (n : TimerNum) (data mask : BitVec 64) :
    Except Fault Vhpet := do
  let old := v.timer n
  let t ← comparatorWritten old data mask
  let v := v.store n { t with capConfig := t.capConfig &&& ~~~hpetTcnfValSet }
  if (t.compval ≠ old.compval ∨ t.comprate ≠ old.comprate) ∧ v.counterEnabled = true then do
    let counter ← vhpetCounter now v true
    vhpetStartTimer v n counter now
  else .ok v

inductive TimerRegister where
  | capCnf
  | comparator
  | fsb

def registerOf (offset : BitVec 32) (i : TimerNum) : Option TimerRegister :=
  if offset = hpetTimerCapCnf i ∨ offset = hpetTimerCapCnf i + 4 then some .capCnf
  else if offset = hpetTimerComparator i ∨ offset = hpetTimerComparator i + 4 then some .comparator
  else if offset = hpetTimerFsbVal i ∨ offset = hpetTimerFsbAddr i then some .fsb
  else none

def timerRegister (offset : BitVec 32) : Option (TimerNum × TimerRegister) :=
  (List.finRange vhpetNumTimers).findSome? fun i => (registerOf offset i).map fun r => (i, r)

def aligned (offset : BitVec 32) (size : Int) : Bool :=
  if size = 8 then decide (offset &&& 7 = 0) else decide (size = 4 ∧ offset &&& 3 = 0)

def covered (offset : BitVec 32) (val : BitVec 64) (size : Int) : BitVec 64 × BitVec 64 :=
  if size = 8 then (val, 0xffffffffffffffff)
  else if offset &&& 4 ≠ 0 then (val <<< 32, 0xffffffff <<< 32)
  else (val, 0xffffffff)

def configStored (data mask : BitVec 64) : Vhpet :=
  { v with config := updateRegister v.config data mask &&& ~~~hpetCnfLegRt }

def writeConfig (now : Int) (data mask : BitVec 64) : Except Fault Vhpet := do
  let counter ← vhpetCounter now v v.counterEnabled
  let w := configStored v data mask
  if (v.config ^^^ w.config) &&& hpetCnfEnable ≠ 0 then
    if w.counterEnabled then vhpetStartCounting w now else vhpetStopCounting w counter now
  else .ok w

def writeIsr (data : BitVec 64) : Except Fault Vhpet :=
  let isrClearMask := (v.isr &&& data).setWidth 32
  attempts (fun v (i : TimerNum) =>
    if isrClearMask.getLsbD i then vhpetTimerClearIsr v i else .ok v) v
    (List.finRange vhpetNumTimers)

/-- The time goes on between the reading of the counter and its restart. -/
def writeMainCounter (now : Int) (delay : Nat) (data mask : BitVec 64) : Except Fault Vhpet := do
  let counter ← vhpetCounter now v false
  let v := { v with
    countbase := (updateRegister (counter.setWidth 64) data mask).setWidth 32 }
  if v.counterEnabled then vhpetStartCounting v (now + delay) else .ok v

def writeTimer (now : Int) (n : TimerNum) (data mask : BitVec 64) :
    TimerRegister → Except Fault Vhpet
  | .capCnf => vhpetTimerUpdateConfig v n data mask
  | .comparator => vhpetTimerComparator v now n data mask
  | .fsb => .ok (v.store n { v.timer n with
      msireg := updateRegister (v.timer n).msireg data mask })

def vhpetMmioWrite (now : Int) (delay : Nat) (gpa val : BitVec 64) (size : Int) :
    Except Fault Vhpet :=
  let offset := (gpa - vhpetBase).setWidth 32
  let (data, mask) := covered offset val size
  if !aligned offset size then .ok v
  else if offset = hpetConfig ∨ offset = hpetConfig + 4 then writeConfig v now data mask
  else if offset = hpetIsr ∨ offset = hpetIsr + 4 then writeIsr v data
  else if offset = hpetMainCounter ∨ offset = hpetMainCounter + 4 then
    writeMainCounter v now delay data mask
  else
    match timerRegister offset with
    | some (n, register) => writeTimer v now n data mask register
    | none => .ok v

def readTimer (t : Timer) : TimerRegister → BitVec 64
  | .capCnf => t.capConfig
  | .comparator => t.compval.setWidth 64
  | .fsb => t.msireg

def readRegister (now : Int) (offset : BitVec 32) : Except Fault (BitVec 64) :=
  if offset = hpetCapabilities ∨ offset = hpetCapabilities + 4 then .ok vhpetCapabilities
  else if offset = hpetConfig ∨ offset = hpetConfig + 4 then .ok v.config
  else if offset = hpetIsr ∨ offset = hpetIsr + 4 then .ok v.isr
  else if offset = hpetMainCounter ∨ offset = hpetMainCounter + 4 then do
    let counter ← vhpetCounter now v false
    .ok (counter.setWidth 64)
  else
    match timerRegister offset with
    | some (n, register) => .ok (readTimer (v.timer n) register)
    | none => .ok 0

def vhpetMmioRead (now : Int) (gpa : BitVec 64) (size : Int) : Except Fault (BitVec 64) :=
  let offset := (gpa - vhpetBase).setWidth 32
  if !aligned offset size then .ok 0
  else do
    let data ← readRegister v now offset
    .ok (if size = 4 ∧ offset &&& 4 ≠ 0 then data >>> 32 else data)

def allowedAtInit (pincount : Nat) : BitVec 64 :=
  if 32 ≤ pincount then 0xff000000
  else if 20 ≤ pincount then 0xf <<< (pincount - 4)
  else 0

def vhpetInit (pincount : Nat) : Vhpet where
  config := 0
  isr := 0
  countbase := 0
  countbaseSbt := 0
  timer _ := ⟨allowedAtInit pincount <<< 32 ||| hpetTcapPerInt ||| hpetTcapFsbIntDel, 0, 0xffffffff, 0,
    ⟨false, false⟩, 0⟩
  calls := []

inductive Event where
  | elapse (ticks : Nat)
  | expire (n : TimerNum)
  | callout (n : TimerNum)
  | write (gpa val : BitVec 64) (size : Int) (delay : Nat)
  | read (gpa : BitVec 64) (size : Int)

structure Device where
  vhpet : Vhpet
  now : Int

def respond (now : Int) (v : Vhpet) : Event → Except Fault Vhpet
  | .elapse _ => .ok v
  | .expire n => .ok (v.store n { v.timer n with
      callout := { (v.timer n).callout with pending := false } })
  | .callout n => vhpetHandler now v n
  | .write gpa val size delay => vhpetMmioWrite v now delay gpa val size
  | .read gpa size => do
      let _ ← vhpetMmioRead v now gpa size
      .ok v

def elapsed : Event → Nat
  | .elapse ticks => ticks
  | .write _ _ _ delay => delay
  | _ => 0

def step (d : Device) (event : Event) : Except Fault Device := do
  let v ← respond d.now d.vhpet event
  .ok ⟨v, d.now + elapsed event⟩

end Hpet
