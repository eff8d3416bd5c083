import Bhyve.Lib.StepRuns

/-!
The 8254 timer of the vmm. The readings of the uptime clock are a stream in the state, so that
each call of binuptime takes the next one and nothing is assumed of them. A remainder by zero
traps. The callout is kept as the two flags its handler looks at and the time it is armed for; what
it raises is counted.
-/
namespace Pit
open StepRuns

structure Bintime where
  sec : BitVec 64
  frac : BitVec 64
deriving DecidableEq

def Bintime.add (bt bt2 : Bintime) : Bintime :=
  let frac := bt.frac + bt2.frac
  ⟨bt.sec + (if frac < bt.frac then 1 else 0) + bt2.sec, frac⟩

def Bintime.sub (bt bt2 : Bintime) : Bintime :=
  let frac := bt.frac - bt2.frac
  ⟨bt.sec - (if bt.frac < frac then 1 else 0) - bt2.sec, frac⟩

def Bintime.before (bt bt2 : Bintime) : Bool :=
  if bt.sec = bt2.sec then bt.frac < bt2.frac else bt.sec.slt bt2.sec

def Bintime.toSbt (bt : Bintime) : BitVec 64 := (bt.sec <<< 32) + (bt.frac >>> 32)

inductive Trap where
  | divide
deriving DecidableEq

structure Callout where
  active : Bool
  pending : Bool
  sbt : BitVec 64

structure Channel where
  mode : BitVec 8
  initial : BitVec 16
  nowBt : Bintime
  cr : Nat → BitVec 8
  ol : Nat → BitVec 8
  slatched : Bool
  status : BitVec 8
  crbyte : Nat
  olbyte : Nat
  frbyte : Bool
  callout : Callout
  calloutBt : Bintime

structure Vatpit where
  channel : Fin 3 → Channel
  clock : Nat → Bintime
  pulses : Nat

def timerIntTc : BitVec 8 := 0x00
def timerRateGen : BitVec 8 := 0x04
def timerSqWave : BitVec 8 := 0x06
def timerSwStrobe : BitVec 8 := 0x08
def timerLatch : BitVec 8 := 0x00
def timer16Bit : BitVec 8 := 0x30
def timerSelReadback : BitVec 8 := 0xc0
def timerStsOut : BitVec 8 := 0x80
def timerStsNullCnt : BitVec 8 := 0x40
def timerRbLctr : BitVec 8 := 0x20
def timerRbLstatus : BitVec 8 := 0x10
def timerRbCtr2 : BitVec 8 := 0x08
def timerRbCtr1 : BitVec 8 := 0x04
def timerRbCtr0 : BitVec 8 := 0x02
def tmr2OutSts : BitVec 32 := 0x20
def pit8254Freq : BitVec 64 := 1193182

def timerDiv100 : BitVec 16 := 11932

def freqFrac : BitVec 64 := (0x8000000000000000 / pit8254Freq) <<< 1

def channel0 : Fin 3 := ⟨0, by decide⟩
def channel1 : Fin 3 := ⟨1, by decide⟩
def channel2 : Fin 3 := ⟨2, by decide⟩

variable (s : Vatpit)

def Vatpit.set (n : Fin 3) (c : Channel) : Vatpit :=
  { s with channel := Function.update s.channel n c }

def binuptime (s : Vatpit) : Bintime × Vatpit :=
  (s.clock 0, { s with clock := fun n => s.clock (n + 1) })

def ticksSince (start now : Bintime) : BitVec 64 :=
  let delta := now.sub start
  delta.sec * pit8254Freq + delta.frac / freqFrac

def vatpitDeltaTicks (n : Fin 3) : BitVec 64 × Vatpit :=
  let (now, s) := binuptime s
  (ticksSince (s.channel n).nowBt now, s)

def remainder (ticks : BitVec 64) (initial : BitVec 16) : Except Trap (BitVec 64) :=
  if initial = 0 then .error .divide else .ok (ticks % initial.setWidth 64)

def vatpitGetOut (n : Fin 3) : Except Trap (Bool × Vatpit) :=
  let c := s.channel n
  if c.mode = timerIntTc then
    let (ticks, s) := vatpitDeltaTicks s n
    .ok (decide (c.initial.setWidth 64 ≤ ticks), s)
  else if c.mode = timerSqWave then do
    let (ticks, s) := vatpitDeltaTicks s n
    let within ← remainder ticks c.initial
    .ok (decide (within < (c.initial / 2).setWidth 64), s)
  else .ok (false, s)

def pitTimerStartCntr0 (s : Vatpit) : Vatpit :=
  let c := s.channel channel0
  if c.initial ≠ 0 then
    let delta : Bintime := ⟨0, freqFrac * c.initial.setWidth 64⟩
    let target := c.calloutBt.add delta
    let (now, s) := binuptime s
    let target := if target.before now then now.add delta else target
    s.set channel0 { c with calloutBt := target, callout := ⟨true, true, target.toSbt⟩ }
  else s

def countRepaired (n : Fin 3) : Vatpit :=
  let c := s.channel n
  if c.initial = 0 then
    let (now, s) := binuptime s
    s.set n { c with initial := timerDiv100, nowBt := now, status := c.status &&& ~~~timerStsNullCnt }
  else s

/-- In square-wave mode the count goes down by two and is read out even. -/
def countAt (c : Channel) (ticks : BitVec 64) : Except Trap (BitVec 16) :=
  if c.mode = timerSqWave then do
    let within ← remainder (ticks * 2) c.initial
    .ok (((c.initial.setWidth 64 - within) &&& ~~~1).setWidth 16)
  else do
    let within ← remainder ticks c.initial
    .ok ((c.initial.setWidth 64 - within).setWidth 16)

def countLatched (c : Channel) (lval : BitVec 16) : Channel :=
  { c with olbyte := 2
           ol := Function.update (Function.update c.ol 1 (lval.setWidth 8)) 0
             ((lval >>> 8).setWidth 8) }

def pitUpdateCounter (n : Fin 3) (latch : Bool) : Except Trap (BitVec 16 × Vatpit) :=
  if latch && decide ((s.channel n).olbyte ≠ 0) then .ok (0, s)
  else do
    let s := countRepaired s n
    let (ticks, s) := vatpitDeltaTicks s n
    let lval ← countAt (s.channel n) ticks
    .ok (lval, if latch then s.set n (countLatched (s.channel n) lval) else s)

def hasBits (val mask : BitVec 8) : Bool := decide (val &&& mask ≠ 0)

def countReadback (n : Fin 3) (cmd : BitVec 8) : Except Trap Vatpit :=
  if !hasBits cmd timerRbLctr && decide ((s.channel n).olbyte = 0) then do
    let (_, s) ← pitUpdateCounter s n true
    .ok s
  else .ok s

def statusReadback (n : Fin 3) (cmd : BitVec 8) : Except Trap Vatpit :=
  if !hasBits cmd timerRbLstatus && !(s.channel n).slatched then
    let s := s.set n { s.channel n with slatched := true }
    let c := s.channel n
    if c.mode = timerIntTc ∨ c.mode = timerSqWave then do
      let (out, s) ← vatpitGetOut s n
      .ok (s.set n { c with status := if out then c.status ||| timerStsOut
                                      else c.status &&& ~~~timerStsOut })
    else .ok (s.set n { c with status := c.status &&& ~~~timerStsOut })
  else .ok s

def pitReadback1 (n : Fin 3) (cmd : BitVec 8) : Except Trap Vatpit := do
  let s ← countReadback s n cmd
  statusReadback s n cmd

def readbackIf (chosen : Bool) (s : Vatpit) (n : Fin 3) (cmd : BitVec 8) : Except Trap Vatpit :=
  if chosen then pitReadback1 s n cmd else .ok s

def pitReadback (cmd : BitVec 8) : Except Trap Vatpit := do
  let s ← readbackIf (hasBits cmd timerRbCtr0) s channel0 cmd
  let s ← readbackIf (hasBits cmd timerRbCtr1) s channel1 cmd
  readbackIf (hasBits cmd timerRbCtr2) s channel2 cmd

def selected (val : BitVec 8) : Fin 3 :=
  if val &&& 0xc0 = 0x00 then channel0 else if val &&& 0xc0 = 0x40 then channel1 else channel2

def vatpitUpdateMode (val : BitVec 8) : Except Trap (Int × Vatpit) :=
  let rw := val &&& 0x30
  let mode := val &&& 0x0f
  if val &&& 0xc0 = timerSelReadback then do
    let s ← pitReadback s val
    .ok (0, s)
  else if rw ≠ timerLatch ∧ rw ≠ timer16Bit then .ok (-1, s)
  else if rw ≠ timerLatch ∧ mode ≠ timerIntTc ∧ mode ≠ timerRateGen ∧ mode ≠ timerSqWave ∧
      mode ≠ timerSwStrobe then
    .ok (-1, s)
  else if rw = timerLatch then do
    let (_, s) ← pitUpdateCounter s (selected val) true
    .ok (0, s)
  else
    let c := s.channel (selected val)
    .ok (0, s.set (selected val)
      { c with mode := mode, olbyte := 0, status := c.status ||| timerStsNullCnt })

def counterRead (n : Fin 3) : Except Trap (BitVec 32 × Vatpit) :=
  let c := s.channel n
  if c.slatched then
    .ok (c.status.setWidth 32, s.set n { c with slatched := false, status := 0 })
  else if c.olbyte = 0 then do
    let (tmp, s) ← pitUpdateCounter s n false
    let c := s.channel n
    let byte := (if c.frbyte then tmp >>> 8 else tmp) &&& 0xff
    .ok (byte.setWidth 32, s.set n { c with frbyte := !c.frbyte })
  else .ok ((c.ol (c.olbyte - 1)).setWidth 32, s.set n { c with olbyte := c.olbyte - 1 })

def countLoaded (n : Fin 3) : Vatpit :=
  let c := s.channel n
  let initial := (c.cr 0).setWidth 16 ||| ((c.cr 1).setWidth 16 <<< 8)
  let (now, s) := binuptime s
  let s := s.set n { c with status := c.status &&& ~~~timerStsNullCnt, frbyte := false, crbyte := 0
                            initial := initial, nowBt := now }
  let s :=
    if n = channel0 then pitTimerStartCntr0 (s.set n { s.channel n with calloutBt := now }) else s
  if initial = 0 then s.set n { s.channel n with initial := 0xffff } else s

def counterWrite (n : Fin 3) (eax : BitVec 32) : Vatpit :=
  let c := s.channel n
  let s := s.set n { c with cr := Function.update c.cr c.crbyte (eax.setWidth 8)
                            crbyte := c.crbyte + 1 }
  if c.crbyte + 1 = 2 then countLoaded s n else s

/-- Ports TIMER_CNTR0 to TIMER_CNTR2 are the channels, the one after them is TIMER_MODE. -/
inductive Port where
  | cntr (n : Fin 3)
  | mode

def vatpitHandler (isIn : Bool) (port : Port) (bytes : Nat) (eax : BitVec 32) :
    Except Trap (Int × BitVec 32 × Vatpit) :=
  if bytes ≠ 1 then .ok (-1, eax, s)
  else
    match port with
    | .mode =>
        if isIn then .ok (-1, eax, s)
        else do
          let (error, s) ← vatpitUpdateMode s (eax.setWidth 8)
          .ok (error, eax, s)
    | .cntr n =>
        if isIn then do
          let (eax, s) ← counterRead s n
          .ok (0, eax, s)
        else .ok (0, eax, counterWrite s n eax)

def vatpitNmiscHandler (isIn : Bool) (eax : BitVec 32) : Except Trap (Int × BitVec 32 × Vatpit) :=
  if isIn then do
    let (out, s) ← vatpitGetOut s channel2
    .ok (0, if out then tmr2OutSts else 0, s)
  else .ok (0, eax, s)

def vatpitCalloutHandler (s : Vatpit) : Vatpit :=
  let c := s.channel channel0
  if c.callout.pending || !c.callout.active then s
  else
    let s := s.set channel0 { c with callout := { c.callout with active := false } }
    let s := if c.mode = timerRateGen ∨ c.mode = timerSqWave then pitTimerStartCntr0 s else s
    { s with pulses := s.pulses + 1 }

def zeroChannel : Channel where
  mode := 0
  initial := 0
  nowBt := ⟨0, 0⟩
  cr := fun _ => 0
  ol := fun _ => 0
  slatched := false
  status := 0
  crbyte := 0
  olbyte := 0
  frbyte := false
  callout := ⟨false, false, 0⟩
  calloutBt := ⟨0, 0⟩

def vatpitInit (clock : Nat → Bintime) : Vatpit := ⟨fun _ => zeroChannel, clock, 0⟩

inductive Access where
  | timer (isIn : Bool) (port : Port) (bytes : Nat) (eax : BitVec 32)
  | speaker (isIn : Bool) (eax : BitVec 32)
  | expire
  | callout

/-- expire is the moment the callout leaves the wheel and its handler is due. -/
def step (s : Vatpit) : Access → Except Trap Vatpit
  | .timer isIn port bytes eax => do
      let (_, _, s) ← vatpitHandler s isIn port bytes eax
      .ok s
  | .speaker isIn eax => do
      let (_, _, s) ← vatpitNmiscHandler s isIn eax
      .ok s
  | .expire =>
      let c := s.channel channel0
      .ok (s.set channel0 { c with callout := { c.callout with pending := false } })
  | .callout => .ok (vatpitCalloutHandler s)

end Pit
