import Bhyve.Lib.BoundedFifo

/-!
The PS/2 keyboard of ps2kbd.c: a FIFO of 16 bytes that key events and the answers to commands go
into. Each function runs under the lock of the keyboard.
-/
namespace Kbdc
open BoundedFifo

abbrev Byte := BitVec 8

def ps2kcResetDev : Byte := 0xff
def ps2kcDisable : Byte := 0xf5
def ps2kcEnable : Byte := 0xf4
def ps2kcSetTypematic : Byte := 0xf3
def ps2kcSendDevId : Byte := 0xf2
def ps2kcSetScancodeSet : Byte := 0xf0
def ps2kcEcho : Byte := 0xee
def ps2kcSetLeds : Byte := 0xed
def ps2kcBatSuccess : Byte := 0xaa
def ps2kcAck : Byte := 0xfa
def ps2kbdFifosz : Nat := 16

structure Ps2kbd where
  enabled : Bool
  fifo : Fifo Byte
  curcmd : Byte

structure ExtendedTranslation where
  keysym : BitVec 32
  scancode : Byte
  e0Prefix : Bool

def extendedTranslations : List ExtendedTranslation :=
  [⟨0xff08, 0x66, false⟩, ⟨0xff09, 0x0d, false⟩, ⟨0xff0d, 0x5a, false⟩,
   ⟨0xff1b, 0x76, false⟩, ⟨0xff50, 0x6c, true⟩, ⟨0xff51, 0x6b, true⟩,
   ⟨0xff52, 0x75, true⟩, ⟨0xff53, 0x74, true⟩, ⟨0xff54, 0x72, true⟩,
   ⟨0xff55, 0x7d, true⟩, ⟨0xff56, 0x7a, true⟩, ⟨0xff57, 0x69, true⟩,
   ⟨0xff63, 0x70, true⟩, ⟨0xff8d, 0x5a, true⟩, ⟨0xffe1, 0x12, false⟩,
   ⟨0xffe2, 0x59, false⟩, ⟨0xffe3, 0x14, false⟩, ⟨0xffe4, 0x14, true⟩,
   ⟨0xffe9, 0x11, false⟩, ⟨0xfe03, 0x11, true⟩, ⟨0xffea, 0x11, true⟩,
   ⟨0xffeb, 0x1f, true⟩, ⟨0xffec, 0x27, true⟩, ⟨0xffbe, 0x05, false⟩,
   ⟨0xffbf, 0x06, false⟩, ⟨0xffc0, 0x04, false⟩, ⟨0xffc1, 0x0c, false⟩,
   ⟨0xffc2, 0x03, false⟩, ⟨0xffc3, 0x0b, false⟩, ⟨0xffc4, 0x83, false⟩,
   ⟨0xffc5, 0x0a, false⟩, ⟨0xffc6, 0x01, false⟩, ⟨0xffc7, 0x09, false⟩,
   ⟨0xffc8, 0x78, false⟩, ⟨0xffc9, 0x07, false⟩, ⟨0xffff, 0x71, true⟩,
   ⟨0xff14, 0x7e, false⟩, ⟨0xff7f, 0x77, false⟩, ⟨0xffaf, 0x4a, true⟩,
   ⟨0xffaa, 0x7c, false⟩, ⟨0xffad, 0x7b, false⟩, ⟨0xffab, 0x79, false⟩,
   ⟨0xffb7, 0x6c, false⟩, ⟨0xff95, 0x6c, false⟩, ⟨0xffb8, 0x75, false⟩,
   ⟨0xff97, 0x75, false⟩, ⟨0xffb9, 0x7d, false⟩, ⟨0xff9a, 0x7d, false⟩,
   ⟨0xffb4, 0x6b, false⟩, ⟨0xff96, 0x6b, false⟩, ⟨0xffb5, 0x73, false⟩,
   ⟨0xff9d, 0x73, false⟩, ⟨0xffb6, 0x74, false⟩, ⟨0xff98, 0x74, false⟩,
   ⟨0xffb1, 0x69, false⟩, ⟨0xff9c, 0x69, false⟩, ⟨0xffb2, 0x72, false⟩,
   ⟨0xff99, 0x72, false⟩, ⟨0xffb3, 0x7a, false⟩, ⟨0xff9b, 0x7a, false⟩,
   ⟨0xffb0, 0x70, false⟩, ⟨0xff9e, 0x70, false⟩, ⟨0xffae, 0x71, false⟩,
   ⟨0xff9f, 0x71, false⟩]

def asciiTranslations : List Byte :=
  [0x00, 0x00, 0x00, 0x00, 0x00, 0x00, 0x00, 0x00,
   0x00, 0x00, 0x00, 0x00, 0x00, 0x00, 0x00, 0x00,
   0x00, 0x00, 0x00, 0x00, 0x00, 0x00, 0x00, 0x00,
   0x00, 0x00, 0x00, 0x00, 0x00, 0x00, 0x00, 0x00,
   0x29, 0x16, 0x52, 0x26, 0x25, 0x2e, 0x3d, 0x52,
   0x46, 0x45, 0x3e, 0x55, 0x41, 0x4e, 0x49, 0x4a,
   0x45, 0x16, 0x1e, 0x26, 0x25, 0x2e, 0x36, 0x3d,
   0x3e, 0x46, 0x4c, 0x4c, 0x41, 0x55, 0x49, 0x4a,
   0x1e, 0x1c, 0x32, 0x21, 0x23, 0x24, 0x2b, 0x34,
   0x33, 0x43, 0x3b, 0x42, 0x4b, 0x3a, 0x31, 0x44,
   0x4d, 0x15, 0x2d, 0x1b, 0x2c, 0x3c, 0x2a, 0x1d,
   0x22, 0x35, 0x1a, 0x54, 0x5d, 0x5b, 0x36, 0x4e,
   0x0e, 0x1c, 0x32, 0x21, 0x23, 0x24, 0x2b, 0x34,
   0x33, 0x43, 0x3b, 0x42, 0x4b, 0x3a, 0x31, 0x44,
   0x4d, 0x15, 0x2d, 0x1b, 0x2c, 0x3c, 0x2a, 0x1d,
   0x22, 0x35, 0x1a, 0x54, 0x5d, 0x5b, 0x0e, 0x00]

def fifoReset : Fifo Byte := ⟨fun _ => 0, 0, 0, 0⟩

def Ps2kbd.fifoPut (sc : Ps2kbd) (val : Byte) : Ps2kbd :=
  { sc with fifo := put ps2kbdFifosz sc.fifo val }

def Ps2kbd.fifoPuts (sc : Ps2kbd) (vals : List Byte) : Ps2kbd := vals.foldl Ps2kbd.fifoPut sc

def ps2kbdRead (sc : Ps2kbd) : Option (Byte × Ps2kbd) :=
  (get ps2kbdFifosz sc.fifo).map fun got => (got.1, { sc with fifo := got.2 })

def ps2kbdArgument (sc : Ps2kbd) : Ps2kbd :=
  let sc :=
    if sc.curcmd = ps2kcSetTypematic ∨ sc.curcmd = ps2kcSetScancodeSet ∨ sc.curcmd = ps2kcSetLeds then
      sc.fifoPut ps2kcAck
    else sc
  { sc with curcmd := 0 }

def ps2kbdWrite (sc : Ps2kbd) (val : Byte) : Ps2kbd :=
  if sc.curcmd ≠ 0 then ps2kbdArgument sc
  else if val = 0x00 then sc.fifoPut ps2kcAck
  else if val = ps2kcResetDev then
    { sc with fifo := fifoReset }.fifoPuts [ps2kcAck, ps2kcBatSuccess]
  else if val = ps2kcDisable then { sc with enabled := false }.fifoPut ps2kcAck
  else if val = ps2kcEnable then
    { sc with enabled := true, fifo := fifoReset }.fifoPut ps2kcAck
  else if val = ps2kcSetTypematic ∨ val = ps2kcSetScancodeSet ∨ val = ps2kcSetLeds then
    { sc with curcmd := val }.fifoPut ps2kcAck
  else if val = ps2kcSendDevId then sc.fifoPuts [ps2kcAck, 0xab, 0x83]
  else if val = ps2kcEcho then sc.fifoPut ps2kcEcho
  else sc

def keysymCode (keysym : BitVec 32) : Option (Byte × Bool) :=
  if keysym < 0x80 then some (asciiTranslations.getD keysym.toNat 0, false)
  else (extendedTranslations.find? fun trans => decide (keysym = trans.keysym)).map fun trans =>
    (trans.scancode, trans.e0Prefix)

def scancode (down : Bool) (keysym : BitVec 32) : List Byte :=
  match keysymCode keysym with
  | some (code, e0Prefix) =>
      (if e0Prefix then [0xe0] else []) ++ (if down then [] else [0xf0]) ++ [code]
  | none => []

def ps2kbdKeysymQueue (sc : Ps2kbd) (down : Bool) (keysym : BitVec 32) : Ps2kbd :=
  sc.fifoPuts (scancode down keysym)

def ps2kbdEvent (sc : Ps2kbd) (down : Bool) (keysym : BitVec 32) : Ps2kbd × Bool :=
  if !sc.enabled then (sc, false)
  else (ps2kbdKeysymQueue sc down keysym, !decide (sc.fifo.num = ps2kbdFifosz))

def ps2kbdInit : Ps2kbd := ⟨false, fifoReset, 0⟩

section
variable {sc w : Ps2kbd}

def Ps2kbd.Valid (sc : Ps2kbd) : Prop := BoundedFifo.Valid ps2kbdFifosz sc.fifo

def Ps2kbd.bytes (sc : Ps2kbd) : List Byte := contents ps2kbdFifosz sc.fifo

theorem reset_valid : BoundedFifo.Valid ps2kbdFifosz fifoReset := empty_valid (by decide) _

theorem fifo_put_valid (valid : sc.Valid) (val : Byte) : (sc.fifoPut val).Valid :=
  put_valid valid val

theorem fifo_puts_valid (vals : List Byte) : ∀ sc : Ps2kbd, sc.Valid → (sc.fifoPuts vals).Valid := by
  induction vals with
  | nil => intro sc valid; exact valid
  | cons val rest ih => intro sc valid; exact ih _ (fifo_put_valid valid val)

theorem ps2kbd_write_valid (valid : sc.Valid) (val : Byte) : (ps2kbdWrite sc val).Valid := by
  unfold ps2kbdWrite
  split
  · unfold ps2kbdArgument
    split
    · exact fifo_put_valid valid _
    · exact valid
  split
  · exact fifo_put_valid valid _
  split
  · exact fifo_puts_valid _ { sc with fifo := fifoReset } reset_valid
  split
  · exact fifo_put_valid (show Ps2kbd.Valid { sc with enabled := false } from valid) _
  split
  · exact fifo_put_valid (show Ps2kbd.Valid ⟨true, fifoReset, sc.curcmd⟩ from reset_valid) _
  split
  · exact fifo_put_valid (show Ps2kbd.Valid { sc with curcmd := val } from valid) _
  split
  · exact fifo_puts_valid _ _ valid
  split
  · exact fifo_put_valid valid _
  · exact valid

theorem ps2kbd_event_valid (valid : sc.Valid) (down : Bool) (keysym : BitVec 32) :
    (ps2kbdEvent sc down keysym).1.Valid := by
  unfold ps2kbdEvent
  split
  · exact valid
  · exact fifo_puts_valid _ _ valid

theorem ps2kbd_read_none (none_ : ps2kbdRead sc = none) : sc.bytes = [] := by
  have empty := get_none.mp (Option.map_eq_none_iff.mp none_)
  exact List.eq_nil_of_length_eq_zero ((contents_length _).trans empty)

theorem ps2kbd_read_some {val : Byte} (valid : sc.Valid) (read : ps2kbdRead sc = some (val, w)) :
    w.Valid ∧ sc.bytes = val :: w.bytes ∧ sc.fifo.num = w.fifo.num + 1 ∧ w.enabled = sc.enabled := by
  obtain ⟨got, taken, same⟩ := Option.map_eq_some_iff.mp read
  cases same
  obtain ⟨first, count⟩ := contents_get valid taken
  exact ⟨get_valid valid taken, first, count, rfl⟩

end

end Kbdc
