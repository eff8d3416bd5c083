import Bhyve.Kbdc.Ps2mouse

/-!
The keyboard controller of atkbdc.c between the two PS/2 devices and the guest. Its lock is held by
each function, up to the end of a command, where the status is set after it is given back. A read
of port 0x60 that finds no data returns a byte that was never set.
-/
namespace Kbdc
open BoundedFifo

def kbdcSetCommandByte : BitVec 32 := 0x60
def kbdcGetCommandByte : BitVec 32 := 0x20
def kbdcDisableAuxPort : BitVec 32 := 0xa7
def kbdcEnableAuxPort : BitVec 32 := 0xa8
def kbdcTestAuxPort : BitVec 32 := 0xa9
def kbdcTestCtrl : BitVec 32 := 0xaa
def kbdcTestKbdPort : BitVec 32 := 0xab
def kbdcDisableKbdPort : BitVec 32 := 0xad
def kbdcEnableKbdPort : BitVec 32 := 0xae
def kbdcReadInport : BitVec 32 := 0xc0
def kbdcReadOutport : BitVec 32 := 0xd0
def kbdcWriteOutport : BitVec 32 := 0xd1
def kbdcWriteKbdOutbuf : BitVec 32 := 0xd2
def kbdcWriteAuxOutbuf : BitVec 32 := 0xd3
def kbdcWriteToAux : BitVec 32 := 0xd4

def kbdTranslation : Byte := 0x40
def kbdSysFlagBit : Byte := 0x04
def kbdDisableKbdPort : Byte := 0x10
def kbdDisableAuxPort : Byte := 0x20
def kbdEnableAuxInt : Byte := 0x02
def kbdEnableKbdInt : Byte := 0x01

def kbdsKbdBufferFull : Byte := 0x01
def kbdsSysFlag : Byte := 0x04
def kbdsCtrlFlag : Byte := 0x08
def kbdsAuxBufferFull : Byte := 0x20
def kbdoKbdOutfull : Byte := 0x10
def kbdoAuxOutfull : Byte := 0x20

def fifosz : Nat := 15
def ctrlCmdFlag : BitVec 32 := 0x8000
def kbdDevIrq : Nat := 1
def auxDevIrq : Nat := 12

def translation : List Byte :=
  [0xff, 0x43, 0x41, 0x3f, 0x3d, 0x3b, 0x3c, 0x58,
   0x64, 0x44, 0x42, 0x40, 0x3e, 0x0f, 0x29, 0x59,
   0x65, 0x38, 0x2a, 0x70, 0x1d, 0x10, 0x02, 0x5a,
   0x66, 0x71, 0x2c, 0x1f, 0x1e, 0x11, 0x03, 0x5b,
   0x67, 0x2e, 0x2d, 0x20, 0x12, 0x05, 0x04, 0x5c,
   0x68, 0x39, 0x2f, 0x21, 0x14, 0x13, 0x06, 0x5d,
   0x69, 0x31, 0x30, 0x23, 0x22, 0x15, 0x07, 0x5e,
   0x6a, 0x72, 0x32, 0x24, 0x16, 0x08, 0x09, 0x5f,
   0x6b, 0x33, 0x25, 0x17, 0x18, 0x0b, 0x0a, 0x60,
   0x6c, 0x34, 0x35, 0x26, 0x27, 0x19, 0x0c, 0x61,
   0x6d, 0x73, 0x28, 0x74, 0x1a, 0x0d, 0x62, 0x6e,
   0x3a, 0x36, 0x1c, 0x1b, 0x75, 0x2b, 0x63, 0x76,
   0x55, 0x56, 0x77, 0x78, 0x79, 0x7a, 0x0e, 0x7b,
   0x7c, 0x4f, 0x7d, 0x4b, 0x47, 0x7e, 0x7f, 0x6f,
   0x52, 0x53, 0x50, 0x4c, 0x4d, 0x48, 0x01, 0x45,
   0x57, 0x4e, 0x51, 0x4a, 0x37, 0x49, 0x46, 0x54,
   0x80, 0x81, 0x82, 0x41, 0x54, 0x85, 0x86, 0x87,
   0x88, 0x89, 0x8a, 0x8b, 0x8c, 0x8d, 0x8e, 0x8f,
   0x90, 0x91, 0x92, 0x93, 0x94, 0x95, 0x96, 0x97,
   0x98, 0x99, 0x9a, 0x9b, 0x9c, 0x9d, 0x9e, 0x9f,
   0xa0, 0xa1, 0xa2, 0xa3, 0xa4, 0xa5, 0xa6, 0xa7,
   0xa8, 0xa9, 0xaa, 0xab, 0xac, 0xad, 0xae, 0xaf,
   0xb0, 0xb1, 0xb2, 0xb3, 0xb4, 0xb5, 0xb6, 0xb7,
   0xb8, 0xb9, 0xba, 0xbb, 0xbc, 0xbd, 0xbe, 0xbf,
   0xc0, 0xc1, 0xc2, 0xc3, 0xc4, 0xc5, 0xc6, 0xc7,
   0xc8, 0xc9, 0xca, 0xcb, 0xcc, 0xcd, 0xce, 0xcf,
   0xd0, 0xd1, 0xd2, 0xd3, 0xd4, 0xd5, 0xd6, 0xd7,
   0xd8, 0xd9, 0xda, 0xdb, 0xdc, 0xdd, 0xde, 0xdf,
   0xe0, 0xe1, 0xe2, 0xe3, 0xe4, 0xe5, 0xe6, 0xe7,
   0xe8, 0xe9, 0xea, 0xeb, 0xec, 0xed, 0xee, 0xef,
   0xf0, 0xf1, 0xf2, 0xf3, 0xf4, 0xf5, 0xf6, 0xf7,
   0xf8, 0xf9, 0xfa, 0xfb, 0xfc, 0xfd, 0xfe, 0xff]

structure Atkbdc where
  ps2kbd : Ps2kbd
  ps2mouse : Ps2mouse
  status : Byte
  outport : Byte
  ram : Nat → Byte
  curcmd : BitVec 32
  ctrlbyte : BitVec 32
  kbd : Fifo Byte
  pulses : List Nat

def hasFlag (x flag : Byte) : Bool := decide (x &&& flag ≠ 0)

def assertKbdIntr (sc : Atkbdc) : Atkbdc :=
  if hasFlag (sc.ram 0) kbdEnableKbdInt then { sc with pulses := sc.pulses ++ [kbdDevIrq] } else sc

def assertAuxIntr (sc : Atkbdc) : Atkbdc :=
  if hasFlag (sc.ram 0) kbdEnableAuxInt then { sc with pulses := sc.pulses ++ [auxDevIrq] } else sc

variable (sc : Atkbdc)

def kbdQueueData (val : Byte) : Atkbdc :=
  if sc.kbd.num < fifosz then
    { sc with
      kbd := put fifosz sc.kbd val
      status := sc.status ||| kbdsKbdBufferFull
      outport := sc.outport ||| kbdoKbdOutfull }
  else sc

def translatedRead : Nat → Byte → Atkbdc → Atkbdc
  | 0, _, sc => sc
  | fuel + 1, release, sc =>
      match ps2kbdRead sc.ps2kbd with
      | none => sc
      | some (val, ps2kbd) =>
          let sc := { sc with ps2kbd := ps2kbd }
          if val = 0xf0 then translatedRead fuel 0x80 sc
          else kbdQueueData sc (translation.getD val.toNat 0 ||| release)

def plainRead : Nat → Atkbdc → Atkbdc
  | 0, sc => sc
  | fuel + 1, sc =>
      if sc.kbd.num < fifosz then
        match ps2kbdRead sc.ps2kbd with
        | none => sc
        | some (val, ps2kbd) => plainRead fuel (kbdQueueData { sc with ps2kbd := ps2kbd } val)
      else sc

def Atkbdc.translates (sc : Atkbdc) : Bool := hasFlag (sc.ram 0) kbdTranslation

def kbdTake (sc : Atkbdc) : Atkbdc :=
  if sc.translates then translatedRead sc.ps2kbd.fifo.num 0 sc else plainRead fifosz sc

def kbdRead (sc : Atkbdc) : Atkbdc :=
  let sc := kbdTake sc
  if (hasFlag (sc.ram 0) kbdDisableAuxPort ∨ sc.ps2mouse.fifocnt = 0) ∧ 0 < sc.kbd.num then
    assertKbdIntr sc
  else sc

def auxRaised (sc : Atkbdc) : Atkbdc :=
  { sc with
    status := sc.status ||| (kbdsAuxBufferFull ||| kbdsKbdBufferFull)
    outport := sc.outport ||| kbdoAuxOutfull }

def auxPoll (sc : Atkbdc) : Atkbdc :=
  if 0 < sc.ps2mouse.fifocnt then assertAuxIntr (auxRaised sc) else sc

def poll (sc : Atkbdc) : Atkbdc := kbdRead (auxPoll sc)

def auxDrained (sc : Atkbdc) : Atkbdc :=
  if sc.ps2mouse.fifocnt = 0 then
    { sc with
      status :=
        if sc.kbd.num = 0 then sc.status &&& ~~~(kbdsAuxBufferFull ||| kbdsKbdBufferFull)
        else sc.status &&& ~~~kbdsAuxBufferFull
      outport := sc.outport &&& ~~~kbdoAuxOutfull }
  else sc

def kbdDrained (sc : Atkbdc) : Atkbdc :=
  if sc.kbd.num = 0 then
    { sc with
      status := sc.status &&& ~~~kbdsKbdBufferFull
      outport := sc.outport &&& ~~~kbdoKbdOutfull }
  else sc

def allDrained (sc : Atkbdc) : Atkbdc :=
  if sc.ps2mouse.fifocnt = 0 ∧ sc.kbd.num = 0 then
    { sc with status := sc.status &&& ~~~(kbdsAuxBufferFull ||| kbdsKbdBufferFull) }
  else sc

def dequeueData (sc : Atkbdc) : Option Byte × Atkbdc :=
  match ps2mouseRead sc.ps2mouse with
  | some (val, ps2mouse) => (some val, poll (auxDrained { sc with ps2mouse := ps2mouse }))
  | none =>
      match get fifosz sc.kbd with
      | some (val, kbd) => (some val, allDrained (poll (kbdDrained { sc with kbd := kbd })))
      | none => (none, allDrained sc)

/-- What a handler leaves in eax is none where it was never set. -/
structure Outcome where
  sc : Atkbdc
  eax : Option (BitVec 32)
  retval : Int

def dataIn (sc : Atkbdc) : Outcome :=
  let sc := { sc with curcmd := 0 }
  let (buf, sc) :=
    if sc.ctrlbyte ≠ 0 then (some (sc.ctrlbyte.setWidth 8), { sc with ctrlbyte := 0 })
    else dequeueData sc
  ⟨{ sc with status := sc.status &&& ~~~kbdsCtrlFlag }, buf.map (BitVec.setWidth 32), 0⟩

def argument (val : Byte) : Atkbdc :=
  if sc.curcmd = kbdcSetCommandByte then
    { sc with
      ram := Function.update sc.ram 0 val
      status := if hasFlag val kbdSysFlagBit then sc.status ||| kbdsSysFlag
        else sc.status &&& ~~~kbdsSysFlag }
  else if sc.curcmd = kbdcWriteOutport then { sc with outport := val }
  else if sc.curcmd = kbdcWriteToAux then
    poll { sc with ps2mouse := ps2mouseWrite sc.ps2mouse val false }
  else if sc.curcmd = kbdcWriteKbdOutbuf then kbdQueueData sc val
  else if sc.curcmd = kbdcWriteAuxOutbuf then
    auxPoll { sc with
      ps2mouse := ps2mouseWrite sc.ps2mouse val true
      status := sc.status ||| (kbdsAuxBufferFull ||| kbdsKbdBufferFull) }
  else if 0x61 ≤ sc.curcmd ∧ sc.curcmd ≤ 0x7f then
    { sc with ram := Function.update sc.ram ((sc.curcmd - 0x60) &&& 0x1f).toNat val }
  else sc

def dataOut (eax : BitVec 32) : Atkbdc :=
  let val : Byte := eax.setWidth 8
  if hasFlag sc.status kbdsCtrlFlag then
    let sc := argument sc val
    { sc with curcmd := 0, status := sc.status &&& ~~~kbdsCtrlFlag }
  else poll { sc with ps2kbd := ps2kbdWrite sc.ps2kbd val }

def atkbdcDataHandler (isIn : Bool) (bytes : Int) (eax : BitVec 32) : Outcome :=
  if 2 < bytes then ⟨sc, some eax, -1⟩
  else if isIn then dataIn sc
  else ⟨dataOut sc eax, some eax, 0⟩

def response (cmd : BitVec 32) : Option (BitVec 32) :=
  if cmd = kbdcGetCommandByte then some (ctrlCmdFlag ||| (sc.ram 0).setWidth 32)
  else if cmd = kbdcTestCtrl then some (ctrlCmdFlag ||| 0x55)
  else if cmd = kbdcTestAuxPort ∨ cmd = kbdcTestKbdPort ∨ cmd = kbdcReadInport then
    some (ctrlCmdFlag ||| 0)
  else if cmd = kbdcReadOutport then some (ctrlCmdFlag ||| sc.outport.setWidth 32)
  else if 0x21 ≤ cmd ∧ cmd ≤ 0x3f then
    some (ctrlCmdFlag ||| (sc.ram ((cmd - 0x20) &&& 0x1f).toNat).setWidth 32)
  else none

def takesArgument (cmd : BitVec 32) : Bool :=
  decide (cmd = kbdcSetCommandByte ∨ cmd = kbdcWriteOutport ∨ cmd = kbdcWriteKbdOutbuf ∨
    cmd = kbdcWriteAuxOutbuf ∨ cmd = kbdcWriteToAux)

def Atkbdc.ram0 (val : Byte) : Atkbdc :=
  { sc with ram := Function.update sc.ram 0 val }

def enableKbdPort (sc : Atkbdc) : Atkbdc :=
  let sc := sc.ram0 (sc.ram 0 &&& ~~~kbdDisableKbdPort)
  poll { sc with
    status := if 0 < sc.kbd.num then sc.status ||| kbdsKbdBufferFull else sc.status }

def disableAuxPort (sc : Atkbdc) : Atkbdc :=
  let sc := sc.ram0 (sc.ram 0 ||| kbdDisableAuxPort)
  { sc with
    ps2mouse := ps2mouseToggle sc.ps2mouse false
    status := sc.status &&& ~~~(kbdsAuxBufferFull ||| kbdsKbdBufferFull)
    outport := sc.outport &&& ~~~kbdsAuxBufferFull }

def enableAuxPort (sc : Atkbdc) : Atkbdc :=
  let sc := sc.ram0 (sc.ram 0 &&& ~~~kbdDisableAuxPort)
  let sc := { sc with ps2mouse := ps2mouseToggle sc.ps2mouse true }
  { sc with
    status := if 0 < sc.ps2mouse.fifocnt then
        sc.status ||| (kbdsAuxBufferFull ||| kbdsKbdBufferFull)
      else sc.status }

def command (cmd : BitVec 32) : Atkbdc :=
  match response sc cmd with
  | some ctrlbyte => { sc with ctrlbyte := ctrlbyte }
  | none =>
      if takesArgument cmd then { sc with curcmd := cmd }
      else if cmd = kbdcDisableKbdPort then sc.ram0 (sc.ram 0 ||| kbdDisableKbdPort)
      else if cmd = kbdcEnableKbdPort then enableKbdPort sc
      else if cmd = kbdcDisableAuxPort then disableAuxPort sc
      else if cmd = kbdcEnableAuxPort then enableAuxPort sc
      else sc

def commandDone (sc : Atkbdc) : Atkbdc :=
  if sc.ctrlbyte ≠ 0 then
    assertKbdIntr { sc with
      status := (sc.status ||| kbdsKbdBufferFull) &&& ~~~kbdsAuxBufferFull }
  else if 0 < sc.ps2mouse.fifocnt ∧ hasFlag (sc.ram 0) kbdDisableAuxPort = false then
    assertAuxIntr { sc with status := sc.status ||| (kbdsAuxBufferFull ||| kbdsKbdBufferFull) }
  else if 0 < sc.kbd.num ∧ hasFlag (sc.ram 0) kbdDisableKbdPort = false then
    assertKbdIntr { sc with status := sc.status ||| kbdsKbdBufferFull }
  else sc

def commandBegun (sc : Atkbdc) : Atkbdc :=
  { sc with curcmd := 0, status := sc.status ||| kbdsCtrlFlag, ctrlbyte := 0 }

def atkbdcStsCtlHandler (isIn : Bool) (bytes : Int) (eax : BitVec 32) : Outcome :=
  if bytes ≠ 1 then ⟨sc, some eax, -1⟩
  else if isIn then ⟨sc, some (sc.status.setWidth 32), 0⟩
  else ⟨commandDone (command (commandBegun sc) eax), some eax, 0⟩

def atkbdcEvent (iskbd : Bool) : Atkbdc := if iskbd then kbdRead sc else auxPoll sc

def atkbdcInit : Atkbdc := ⟨ps2kbdInit, ps2mouseInit, 0, 0, fun _ => 0, 0, 0, ⟨fun _ => 0, 0, 0, 0⟩, []⟩

inductive Event where
  | data (isIn : Bool) (bytes : Int) (eax : BitVec 32)
  | status (isIn : Bool) (bytes : Int) (eax : BitVec 32)
  | key (down : Bool) (keysym : BitVec 32)
  | pointer (button : Byte) (x y : Int)

def step (sc : Atkbdc) : Event → Atkbdc
  | .data isIn bytes eax => (atkbdcDataHandler sc isIn bytes eax).sc
  | .status isIn bytes eax => (atkbdcStsCtlHandler sc isIn bytes eax).sc
  | .key down keysym =>
      let (ps2kbd, told) := ps2kbdEvent sc.ps2kbd down keysym
      let sc := { sc with ps2kbd := ps2kbd }
      if told then atkbdcEvent sc true else sc
  | .pointer button x y =>
      let (ps2mouse, told) := ps2mouseEvent sc.ps2mouse button x y
      let sc := { sc with ps2mouse := ps2mouse }
      if told then atkbdcEvent sc false else sc

end Kbdc
