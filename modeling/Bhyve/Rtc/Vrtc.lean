import Mathlib.Algebra.Group.Int.Defs
import Bhyve.Lib.ByteMemory

/-!
The virtual RTC of the vmm. Time is a number of seconds and uptime a 32.32 fixed-point
number, both unbounded here. The kernel's calendar, clock_ts_to_ct and clock_ct_to_ts, is
a parameter. Failed assertions and the alarm scan that never meets its end are faults;
the one that uptime does not go back is left to sbinuptime.
-/
namespace Rtc
open ByteMemory

structure Clocktime where
  sec : Nat
  min : Nat
  hour : Nat
  day : Nat
  mon : Nat
  year : Nat
  dow : Int
  deriving DecidableEq

structure Kernel where
  clockTsToCt : Int → Clocktime
  clockCtToTs : Clocktime → Option Int
  flagBrokenTime : Bool

inductive Fault where
  | assertion
  | runaway
  | stopped
  deriving DecidableEq

structure Callout where
  active : Bool
  pending : Bool
  deriving DecidableEq

/-- struct vrtc; rtcdev is its 128 bytes, and irqPulses counts the pulses of IRQ 8. -/
structure Vrtc where
  addr : Nat
  baseUptime : Int
  baseRtctime : Int
  rtcdev : Mem
  callout : Callout
  irqPulses : Nat

def rtcSec : Nat := 0
def rtcAlarmSec : Nat := 1
def rtcMin : Nat := 2
def rtcAlarmMin : Nat := 3
def rtcHour : Nat := 4
def rtcAlarmHour : Nat := 5
def rtcDayOfWeek : Nat := 6
def rtcDayOfMonth : Nat := 7
def rtcMonth : Nat := 8
def rtcYear : Nat := 9
def rtcRegA : Nat := 10
def rtcRegB : Nat := 11
def rtcRegC : Nat := 12
def rtcRegD : Nat := 13
def rtcCentury : Nat := 0x32
def sizeofRtcdev : Nat := 128

def brokenTime : Int := -1
def sbt1s : Int := 2 ^ 32
def posixBaseYear : Nat := 1970
def ebusy : Int := 16

def rtcsbHalt : BitVec 8 := 0x80
def rtcsbPintr : BitVec 8 := 0x40
def rtcsbAintr : BitVec 8 := 0x20
def rtcsbUintr : BitVec 8 := 0x10
def rtcsbBin : BitVec 8 := 0x04
def rtcsb24hr : BitVec 8 := 0x02
def rtcsbAllIntrs : BitVec 8 := rtcsbUintr ||| rtcsbAintr ||| rtcsbPintr
def rtcsaTup : BitVec 8 := 0x80
def rtcirUpdate : BitVec 8 := 0x10
def rtcirAlarm : BitVec 8 := 0x20
def rtcirPeriod : BitVec 8 := 0x40
def rtcirInt : BitVec 8 := 0x80
def rtcsdPwr : BitVec 8 := 0x80

def hasBits (reg mask : BitVec 8) : Bool := decide (reg &&& mask ≠ 0)

def Vrtc.regA (v : Vrtc) : BitVec 8 := v.rtcdev rtcRegA
def Vrtc.regB (v : Vrtc) : BitVec 8 := v.rtcdev rtcRegB
def Vrtc.regC (v : Vrtc) : BitVec 8 := v.rtcdev rtcRegC

def Vrtc.store (v : Vrtc) (offset : Nat) (val : BitVec 8) : Vrtc :=
  { v with rtcdev := write8 v.rtcdev offset val }

def rtcHalted (v : Vrtc) : Bool := hasBits v.regB rtcsbHalt
def aintrEnabled (v : Vrtc) : Bool := hasBits v.regB rtcsbAintr
def pintrEnabled (v : Vrtc) : Bool := hasBits v.regB rtcsbPintr
def uintrEnabled (v : Vrtc) : Bool := hasBits v.regB rtcsbUintr

def dividerEnabled (regA : BitVec 8) : Bool := decide (regA &&& 0x70 = 0x20)

def updateEnabled (v : Vrtc) : Bool :=
  dividerEnabled v.regA && !rtcHalted v && decide (v.baseRtctime ≠ brokenTime)

def vrtcCurtime (now : Int) (v : Vrtc) : Int × Int :=
  if updateEnabled v then
    let secs := (now - v.baseUptime).tdiv sbt1s
    (v.baseRtctime + secs, v.baseUptime + secs * sbt1s)
  else (v.baseRtctime, v.baseUptime)

def bin2bcd (val : Nat) : BitVec 8 := BitVec.ofNat 8 (val / 10 * 16 + val % 10)

def rtcset (regB : BitVec 8) (val : Nat) : Except Fault (BitVec 8) :=
  if 100 ≤ val then .error .assertion
  else .ok (if hasBits regB rtcsbBin then BitVec.ofNat 8 val else bin2bcd val)

/-- The assertions of secs_to_rtc on what the kernel's calendar returned. -/
def validClocktime (ct : Clocktime) : Bool :=
  decide (ct.sec ≤ 59 ∧ ct.min ≤ 59 ∧ ct.hour ≤ 23 ∧ 0 ≤ ct.dow ∧ ct.dow ≤ 6 ∧
    1 ≤ ct.day ∧ ct.day ≤ 31 ∧ 1 ≤ ct.mon ∧ ct.mon ≤ 12 ∧ posixBaseYear ≤ ct.year)

def hourField (regB : BitVec 8) (hour : Nat) : Nat :=
  if hasBits regB rtcsb24hr then hour
  else if hour = 0 ∨ hour = 12 then 12
  else hour % 12

def stampFields (rtc : Mem) (sec min hour dow day mon year century : BitVec 8) : Mem :=
  write8 (write8 (write8 (write8 (write8 (write8 (write8 (write8 rtc rtcSec sec) rtcMin min)
    rtcHour hour) rtcDayOfWeek dow) rtcDayOfMonth day) rtcMonth mon) rtcYear year) rtcCentury century

variable (kernel : Kernel)

def secsToRtc (rtctime : Int) (v : Vrtc) (forceUpdate : Bool) : Except Fault Vrtc :=
  if rtctime < 0 then if rtctime = brokenTime then .ok v else .error .assertion
  else if rtcHalted v && !forceUpdate then .ok v
  else
    let ct := kernel.clockTsToCt rtctime
    if validClocktime ct then do
      let regB := v.regB
      let sec ← rtcset regB ct.sec
      let min ← rtcset regB ct.min
      let hour ← rtcset regB (hourField regB ct.hour)
      let hour := if !hasBits regB rtcsb24hr && decide (12 ≤ ct.hour) then hour ||| 0x80 else hour
      let dow ← rtcset regB (ct.dow.toNat + 1)
      let day ← rtcset regB ct.day
      let mon ← rtcset regB ct.mon
      let year ← rtcset regB (ct.year % 100)
      let century ← rtcset regB (ct.year / 100)
      .ok { v with rtcdev := stampFields v.rtcdev sec min hour dow day mon year century }
    else .error .assertion

def rtcget (regB val : BitVec 8) : Option Nat :=
  if hasBits regB rtcsbBin then some val.toNat
  else
    let lower := (val &&& 0xf).toNat
    let upper := (val >>> 4 &&& 0xf).toNat
    if 9 < lower ∨ 9 < upper then none else some (upper * 10 + lower)

/-- The hour field in 24-hour terms: in 12-hour format bit 7 is the PM flag. -/
def rtcgetHour (regB val : BitVec 8) : Option Nat :=
  if hasBits regB rtcsb24hr then rtcget regB val
  else
    match rtcget regB (val &&& 0x7f) with
    | none => none
    | some hour =>
        if 1 ≤ hour ∧ hour ≤ 12 then
          some ((if hour = 12 then 0 else hour) + if hasBits val 0x80 then 12 else 0)
        else none

def inRange (lo hi : Nat) (field : Option Nat) : Option Nat :=
  field.filter fun val => decide (lo ≤ val ∧ val ≤ hi)

def rtcClocktime (rtc : Mem) : Option Clocktime := do
  let regB := rtc rtcRegB
  let sec ← inRange 0 59 (rtcget regB (rtc rtcSec))
  let min ← inRange 0 59 (rtcget regB (rtc rtcMin))
  let hour ← inRange 0 23 (rtcgetHour regB (rtc rtcHour))
  let day ← inRange 1 31 (rtcget regB (rtc rtcDayOfMonth))
  let mon ← inRange 1 12 (rtcget regB (rtc rtcMonth))
  let year ← inRange 0 99 (rtcget regB (rtc rtcYear))
  let century ← rtcget regB (rtc rtcCentury)
  if century * 100 + year < posixBaseYear then none
  else some ⟨sec, min, hour, day, mon, century * 100 + year, -1⟩

def rtcToSecs (v : Vrtc) : Int :=
  match rtcClocktime v.rtcdev with
  | none => brokenTime
  | some ct =>
      match kernel.clockCtToTs ct with
      | none => brokenTime
      | some secs => if secs < 0 then brokenTime else secs

variable (v : Vrtc)

def vrtcSetRegC (newval : BitVec 8) : Vrtc :=
  let newval := newval &&& (rtcirAlarm ||| rtcirPeriod ||| rtcirUpdate)
  let oldirqf := hasBits v.regC rtcirInt
  let newirqf := (aintrEnabled v && hasBits newval rtcirAlarm) ||
    (pintrEnabled v && hasBits newval rtcirPeriod) || (uintrEnabled v && hasBits newval rtcirUpdate)
  let v := v.store rtcRegC ((if newirqf then rtcirInt else 0) ||| newval)
  if !oldirqf && newirqf then { v with irqPulses := v.irqPulses + 1 } else v

def alarmMatches (alarm field : BitVec 8) : Bool := decide (0xc0 ≤ alarm.toNat ∨ alarm = field)

/-- One turn of the loop in vrtc_time_update: a second at a time while the alarm is
    enabled and the old time was valid, else all at once. -/
def timeUpdateTurn (alarms : BitVec 8 × BitVec 8 × BitVec 8) (oldtime newtime : Int)
    (v : Vrtc) : Except Fault Vrtc :=
  let moved := { v with
    baseRtctime :=
      if aintrEnabled v && decide (oldtime ≠ brokenTime) then v.baseRtctime + 1 else newtime }
  if aintrEnabled moved then do
    let v ← secsToRtc kernel moved.baseRtctime moved false
    if alarmMatches alarms.1 (v.rtcdev rtcSec) && alarmMatches alarms.2.1 (v.rtcdev rtcMin) &&
        alarmMatches alarms.2.2 (v.rtcdev rtcHour) then
      .ok (vrtcSetRegC v (v.regC ||| rtcirAlarm))
    else .ok v
  else .ok moved

def timeUpdateLoop (kernel : Kernel) (alarms : BitVec 8 × BitVec 8 × BitVec 8)
    (oldtime newtime : Int) : Nat → Vrtc → Except Fault Vrtc
  | 0, _ => .error .runaway
  | fuel + 1, v => do
      let v ← timeUpdateTurn kernel alarms oldtime newtime v
      if v.baseRtctime = newtime then .ok v
      else timeUpdateLoop kernel alarms oldtime newtime fuel v

/-- The loop gets as many turns as there are seconds to go: one that steps by seconds has
    met newtime by then or has started after it. -/
def vrtcTimeUpdate (newtime newbase : Int) : Except Fault (Vrtc × Int) :=
  let alarms := (v.rtcdev rtcAlarmSec, v.rtcdev rtcAlarmMin, v.rtcdev rtcAlarmHour)
  let oldtime := v.baseRtctime
  let v := { v with baseUptime := newbase }
  if newtime = oldtime then .ok (v, 0)
  else if newtime = brokenTime then .ok ({ v with baseRtctime := brokenTime }, 0)
  else if rtcHalted v then .ok (v, ebusy)
  else do
    let v ← timeUpdateLoop kernel alarms oldtime newtime ((newtime - oldtime).toNat + 1) v
    .ok (if uintrEnabled v then vrtcSetRegC v (v.regC ||| rtcirUpdate) else v, 0)

def periodicFreq : List Int :=
  [0, sbt1s / 256, sbt1s / 128, sbt1s / 8192, sbt1s / 4096, sbt1s / 2048, sbt1s / 1024, sbt1s / 512,
   sbt1s / 256, sbt1s / 128, sbt1s / 64, sbt1s / 32, sbt1s / 16, sbt1s / 8, sbt1s / 4, sbt1s / 2]

def vrtcFreq (v : Vrtc) : Int :=
  if pintrEnabled v && dividerEnabled v.regA then periodicFreq.getD (v.regA &&& 0xf).toNat 0
  else if aintrEnabled v && updateEnabled v then sbt1s
  else if uintrEnabled v && updateEnabled v then sbt1s
  else 0

def vrtcCalloutReset (freq : Int) : Vrtc :=
  if freq = 0 then if v.callout.active then { v with callout := ⟨false, false⟩ } else v
  else { v with callout := ⟨true, true⟩ }

def vrtcCalloutCheck (freq : Int) : Except Fault Vrtc :=
  if v.callout.active = decide (freq ≠ 0) then .ok v else .error .assertion

def vrtcCalloutAdjust (oldfreq : Int) : Except Fault Vrtc :=
  if vrtcFreq v ≠ oldfreq then .ok (vrtcCalloutReset v (vrtcFreq v))
  else vrtcCalloutCheck v (vrtcFreq v)

def assertTimeUpdate (newtime newbase : Int) : Except Fault Vrtc := do
  let (v, error) ← vrtcTimeUpdate kernel v newtime newbase
  if error = 0 then .ok v else .error .assertion

def regBHaltEdge (now : Int) (v : Vrtc) (newval : BitVec 8) : Except Fault (Vrtc × Int) :=
  if !hasBits newval rtcsbHalt then
    let rtctime := rtcToSecs kernel v
    if rtctime = brokenTime ∧ kernel.flagBrokenTime then .ok (v, -1)
    else do
      let v ← assertTimeUpdate kernel v rtctime now
      .ok (v, 0)
  else
    let (curtime, basetime) := vrtcCurtime now v
    if curtime ≠ v.baseRtctime then .error .assertion
    else do
      let v ← secsToRtc kernel curtime v true
      let v ← assertTimeUpdate kernel (v.store rtcRegB (v.regB &&& ~~~rtcsbUintr)) brokenTime basetime
      .ok (v, 0)

def vrtcSetRegB (now : Int) (v : Vrtc) (newval : BitVec 8) : Except Fault (Vrtc × Int) := do
  let oldfreq := vrtcFreq v
  let changed := v.regB ^^^ newval
  let v := v.store rtcRegB newval
  let (v, error) ← if hasBits changed rtcsbHalt then regBHaltEdge kernel now v newval else .ok (v, 0)
  if error ≠ 0 then .ok (v, error)
  else
    let v := if hasBits changed rtcsbAllIntrs then vrtcSetRegC v v.regC else v
    let v ← vrtcCalloutAdjust v oldfreq
    .ok (v, 0)

def vrtcSetRegA (now : Int) (v : Vrtc) (newval : BitVec 8) : Except Fault Vrtc :=
  let newval := newval &&& ~~~rtcsaTup
  let oldfreq := vrtcFreq v
  let v := if !dividerEnabled v.regA && dividerEnabled newval then { v with baseUptime := now } else v
  vrtcCalloutAdjust (v.store rtcRegA newval) oldfreq

def vrtcSetTime (now : Int) (v : Vrtc) (secs : Int) : Except Fault (Vrtc × Int) :=
  vrtcTimeUpdate kernel v secs now

def vrtcAddrHandler (isIn : Bool) (bytes : Nat) (val : BitVec 8) : Vrtc × BitVec 8 × Int :=
  if bytes ≠ 1 then (v, val, -1)
  else if isIn then (v, 0xff, 0)
  else ({ v with addr := (val &&& 0x7f).toNat }, val, 0)

def isTimeOffset (offset : Nat) : Bool := decide (offset < 10 ∨ offset = rtcCentury)

/-- What vrtc_data_handler does before it looks at the direction: the base time moves to
    the present, and an access to a time field first renews all of them. -/
def vrtcRefresh (now : Int) (v : Vrtc) (offset : Nat) : Except Fault Vrtc := do
  let (curtime, basetime) := vrtcCurtime now v
  let (v, _) ← vrtcTimeUpdate kernel v curtime basetime
  if isTimeOffset offset then secsToRtc kernel curtime v false else .ok v

def centuryWritten (now : Int) (v : Vrtc) : Except Fault (Vrtc × Int) := do
  let curtime := rtcToSecs kernel v
  let v ← assertTimeUpdate kernel v curtime now
  .ok (v, if curtime = brokenTime ∧ kernel.flagBrokenTime then -1 else 0)

def vrtcDataOut (now : Int) (v : Vrtc) (offset : Nat) (val : BitVec 8) :
    Except Fault (Vrtc × Int) := do
  let (v, error) ←
    if offset = rtcRegA then do
      let v ← vrtcSetRegA now v val
      .ok (v, 0)
    else if offset = rtcRegB then vrtcSetRegB kernel now v val
    else if offset = rtcRegC ∨ offset = rtcRegD then .ok (v, 0)
    else .ok (v.store offset (if offset = rtcSec then val &&& 0x7f else val), 0)
  if offset = rtcCentury ∧ !rtcHalted v then centuryWritten kernel now v else .ok (v, error)

def vrtcDataHandler (now : Int) (v : Vrtc) (isIn : Bool) (bytes : Nat)
    (val : BitVec 8) : Except Fault (Vrtc × BitVec 8 × Int) :=
  if bytes ≠ 1 then .ok (v, val, -1)
  else
    let offset := v.addr
    if sizeofRtcdev ≤ offset then .ok (v, val, -1)
    else do
      let v ← vrtcRefresh kernel now v offset
      if isIn then
        if offset = rtcRegC then .ok (vrtcSetRegC v 0, v.regC, 0)
        else .ok (v, v.rtcdev offset, 0)
      else
        let (v, error) ← vrtcDataOut kernel now v offset val
        .ok (v, val, error)

def vrtcInit (now : Int) : Except Fault Vrtc := do
  let rtcdev := write8 (write8 (write8 (fun _ => 0) rtcRegA 0x20) rtcRegB rtcsb24hr) rtcRegD rtcsdPwr
  let (v, _) ← vrtcTimeUpdate kernel ⟨rtcRegD, 0, brokenTime, rtcdev, ⟨false, false⟩, 0⟩ 0 now
  secsToRtc kernel 0 v false

end Rtc
