import Bhyve.Lib.ByteMemory

/-!
The keyboard half of the boot ROM: INT 09h decodes scancodes into key words and queues
them in the BIOS data area, INT 16h takes them out again. The BIOS data area is a byte
memory addressed from its own base, because the producer stores through a pointer whose
offset is itself a field of the area. Port I/O to the 8042 and the PIC is left out.
-/
namespace MicrobootKeyboard
open ByteMemory

def bdaKbdSts1 : Nat := 0x17
def bdaKbdBufHead : Nat := 0x1a
def bdaKbdBufTail : Nat := 0x1c
def bdaKbdBuf : Nat := 0x1e
def bdaKbdBufStart : Nat := 0x80
def bdaKbdBufEnd : Nat := 0x82
def bdaKbdSts3 : Nat := 0x96

def keyBufferHead (bda : Mem) : BitVec 16 := read16 bda bdaKbdBufHead
def keyBufferTail (bda : Mem) : BitVec 16 := read16 bda bdaKbdBufTail
def keyBufferStart (bda : Mem) : BitVec 16 := read16 bda bdaKbdBufStart
def keyBufferEnd (bda : Mem) : BitVec 16 := read16 bda bdaKbdBufEnd

def kbsf1InsertBit : BitVec 8 := 0x80
def kbsf1CapsLockBit : BitVec 8 := 0x40
def kbsf1NumLockBit : BitVec 8 := 0x20
def kbsf1ScrollLockBit : BitVec 8 := 0x10
def kbsf1AltPressed : BitVec 8 := 0x08
def kbsf1CtrlPressed : BitVec 8 := 0x04
def kbsf1LshiftPressed : BitVec 8 := 0x02
def kbsf1RshiftPressed : BitVec 8 := 0x01
def kbsf3LastCodeE1 : BitVec 8 := 0x01
def kbsf3LastCodeE0 : BitVec 8 := 0x02

structure KeyEntry where
  normal : BitVec 16
  shift : BitVec 16
  control : BitVec 16
  alt : BitVec 16

def noKey : KeyEntry := ⟨0xffff, 0xffff, 0xffff, 0xffff⟩

def key1byteEntries : List KeyEntry :=
  [noKey, ⟨0x011b, 0x011b, 0x011b, 0xffff⟩, ⟨0x0231, 0x0221, 0xffff, 0x7800⟩,
   ⟨0x0332, 0x0340, 0x0300, 0x7900⟩, ⟨0x0433, 0x0423, 0xffff, 0x7a00⟩,
   ⟨0x0534, 0x0524, 0xffff, 0x7b00⟩, ⟨0x0635, 0x0625, 0xffff, 0x7c00⟩,
   ⟨0x0736, 0x075e, 0x071e, 0x7d00⟩, ⟨0x0837, 0x0826, 0xffff, 0x7e00⟩,
   ⟨0x0938, 0x092a, 0xffff, 0x7f00⟩, ⟨0x0a39, 0x0a28, 0xffff, 0x8000⟩,
   ⟨0x0b30, 0x0b29, 0xffff, 0x8100⟩, ⟨0x0c2d, 0x0c5f, 0x0c1f, 0x8200⟩,
   ⟨0x0d3d, 0x0d2b, 0xffff, 0x8300⟩, ⟨0x0e08, 0x0e08, 0x0e7f, 0xffff⟩,
   ⟨0x0f09, 0x0f00, 0xffff, 0xffff⟩, ⟨0x1071, 0x1051, 0x1011, 0x1000⟩,
   ⟨0x1177, 0x1157, 0x1117, 0x1100⟩, ⟨0x1265, 0x1245, 0x1205, 0x1200⟩,
   ⟨0x1372, 0x1352, 0x1312, 0x1300⟩, ⟨0x1474, 0x1454, 0x1414, 0x1400⟩,
   ⟨0x1579, 0x1559, 0x1519, 0x1500⟩, ⟨0x1675, 0x1655, 0x1615, 0x1600⟩,
   ⟨0x1769, 0x1749, 0x1709, 0x1700⟩, ⟨0x186f, 0x184f, 0x180f, 0x1800⟩,
   ⟨0x1970, 0x1950, 0x1910, 0x1900⟩, ⟨0x1a5b, 0x1a7b, 0x1a1b, 0xffff⟩,
   ⟨0x1b5d, 0x1b7d, 0x1b1d, 0xffff⟩, ⟨0x1c0d, 0x1c0d, 0x1c0a, 0xffff⟩, noKey,
   ⟨0x1e61, 0x1e41, 0x1e01, 0x1e00⟩, ⟨0x1f73, 0x1f53, 0x1f13, 0x1f00⟩,
   ⟨0x2064, 0x2044, 0x2004, 0x2000⟩, ⟨0x2166, 0x2146, 0x2106, 0x2100⟩,
   ⟨0x2267, 0x2247, 0x2207, 0x2200⟩, ⟨0x2368, 0x2348, 0x2308, 0x2300⟩,
   ⟨0x246a, 0x244a, 0x240a, 0x2400⟩, ⟨0x256b, 0x254b, 0x250b, 0x2500⟩,
   ⟨0x266c, 0x264c, 0x260c, 0x2600⟩, ⟨0x273b, 0x273a, 0xffff, 0xffff⟩,
   ⟨0x2827, 0x2822, 0xffff, 0xffff⟩, ⟨0x2960, 0x297e, 0xffff, 0xffff⟩, noKey,
   ⟨0x2b5c, 0x2b7c, 0x2b1c, 0xffff⟩, ⟨0x2c7a, 0x2c5a, 0x2c1a, 0x2c00⟩,
   ⟨0x2d78, 0x2d58, 0x2d18, 0x2d00⟩, ⟨0x2e63, 0x2e43, 0x2e03, 0x2e00⟩,
   ⟨0x2f76, 0x2f56, 0x2f16, 0x2f00⟩, ⟨0x3062, 0x3042, 0x3002, 0x3000⟩,
   ⟨0x316e, 0x314e, 0x310e, 0x3100⟩, ⟨0x326d, 0x324d, 0x320d, 0x3200⟩,
   ⟨0x332c, 0x333c, 0xffff, 0xffff⟩, ⟨0x342e, 0x343e, 0xffff, 0xffff⟩,
   ⟨0x352f, 0x353f, 0xffff, 0xffff⟩, noKey, ⟨0x372a, 0xffff, 0x3772, 0xffff⟩, noKey,
   ⟨0x3920, 0x3920, 0x3920, 0x3920⟩, noKey, ⟨0x3b00, 0x5400, 0x5e00, 0x6800⟩,
   ⟨0x3c00, 0x5500, 0x5f00, 0x6900⟩, ⟨0x3d00, 0x5600, 0x6000, 0x6a00⟩,
   ⟨0x3e00, 0x5700, 0x6100, 0x6b00⟩, ⟨0x3f00, 0x5800, 0x6200, 0x6c00⟩,
   ⟨0x4000, 0x5900, 0x6300, 0x6d00⟩, ⟨0x4100, 0x5a00, 0x6400, 0x6e00⟩,
   ⟨0x4200, 0x5b00, 0x6500, 0x6f00⟩, ⟨0x4300, 0x5c00, 0x6600, 0x7000⟩,
   ⟨0x4400, 0x5d00, 0x6700, 0x7100⟩, noKey, noKey, ⟨0x4700, 0x4737, 0x7700, 0xffff⟩,
   ⟨0x4800, 0x4838, 0xffff, 0xffff⟩, ⟨0x4900, 0x4939, 0x8400, 0xffff⟩,
   ⟨0x4a2d, 0x4a2d, 0xffff, 0xffff⟩, ⟨0x4b00, 0x4b34, 0x7300, 0xffff⟩,
   ⟨0xffff, 0x4c35, 0xffff, 0xffff⟩, ⟨0x4d00, 0x4d36, 0x7400, 0xffff⟩,
   ⟨0x4e2b, 0x4e2b, 0xffff, 0xffff⟩, ⟨0x4f00, 0x4f31, 0x7500, 0xffff⟩,
   ⟨0x5000, 0x5032, 0xffff, 0xffff⟩, ⟨0x5100, 0x5133, 0x7600, 0xffff⟩,
   ⟨0x5200, 0x5230, 0xffff, 0xffff⟩, ⟨0x5300, 0x532e, 0xffff, 0xffff⟩, noKey, noKey, noKey,
   ⟨0x8500, 0x5787, 0x8900, 0x8b00⟩, ⟨0x8600, 0x5888, 0x8a00, 0x8c00⟩]
def key2byteEntries : List KeyEntry :=
  [noKey, noKey, noKey, noKey, noKey, noKey, noKey, noKey, noKey, noKey, noKey, noKey, noKey,
   noKey, noKey, noKey, noKey, noKey, noKey, noKey, noKey, noKey, noKey, noKey, noKey, noKey,
   noKey, noKey, ⟨0x1c0d, 0x1c0d, 0x1c0a, 0xffff⟩, noKey, noKey, noKey, noKey, noKey, noKey, noKey,
   noKey, noKey, noKey, noKey, noKey, noKey, ⟨0xffff, 0xffff, 0x7200, 0xffff⟩, noKey, noKey, noKey,
   noKey, noKey, noKey, noKey, noKey, noKey, noKey, ⟨0x352f, 0x352f, 0xffff, 0xffff⟩, noKey, noKey,
   noKey, noKey, noKey, noKey, noKey, noKey, noKey, noKey, noKey, noKey, noKey, noKey, noKey,
   noKey, noKey, ⟨0x4700, 0x4700, 0x7700, 0xffff⟩, ⟨0x4800, 0x4800, 0xffff, 0xffff⟩,
   ⟨0x4900, 0x4900, 0x8400, 0xffff⟩, noKey, ⟨0x4b00, 0x4b00, 0x7300, 0xffff⟩, noKey,
   ⟨0x4d00, 0x4d00, 0x7400, 0xffff⟩, noKey, ⟨0x4f00, 0x4f00, 0x7500, 0xffff⟩,
   ⟨0x5000, 0x5000, 0xffff, 0xffff⟩, ⟨0x5100, 0x5100, 0x7600, 0xffff⟩,
   ⟨0x5200, 0x5200, 0xffff, 0xffff⟩, ⟨0x5300, 0x5300, 0xffff, 0xffff⟩]

inductive KeyTable where
  | oneByte
  | twoByte

def KeyTable.entries : KeyTable → List KeyEntry
  | .oneByte => key1byteEntries
  | .twoByte => key2byteEntries

/-- The ROM words behind each table. A make code above the last entry is looked up
    without a bounds check and reads them. -/
abbrev RomTail := KeyTable → Nat → KeyEntry

def keyEntries (rom : RomTail) (table : KeyTable) (scancode : BitVec 8) : KeyEntry :=
  table.entries.getD scancode.toNat (rom table scancode.toNat)

def scanbit (scancode : BitVec 8) : BitVec 8 :=
  match scancode &&& 0x7f with
  | 0x52#8 => kbsf1InsertBit
  | 0x3a#8 => kbsf1CapsLockBit
  | 0x45#8 => kbsf1NumLockBit
  | 0x46#8 => kbsf1ScrollLockBit
  | 0x38#8 => kbsf1AltPressed
  | 0x1d#8 => kbsf1CtrlPressed
  | 0x2a#8 => kbsf1LshiftPressed
  | 0x36#8 => kbsf1RshiftPressed
  | _ => 0

/-- The status-byte half of process_scancode. The flag tells whether a key lookup follows:
    a break code of any key goes straight to `done`. -/
def applyScanbit (bda : Mem) (scancode : BitVec 8) : Mem × Bool :=
  let bit := scanbit scancode
  if bit ≠ 0 then
    if scancode &&& 0x80 ≠ 0 then
      (write8 bda bdaKbdSts1 (bda bdaKbdSts1 &&& ~~~bit), false)
    else
      (write8 bda bdaKbdSts1 (bda bdaKbdSts1 ||| bit), true)
  else (bda, decide (scancode &&& 0x80 = 0))

def selectKey (rom : RomTail) (bda : Mem) (scancode : BitVec 8) : BitVec 16 :=
  let table : KeyTable :=
    if bda bdaKbdSts3 &&& kbsf3LastCodeE0 ≠ 0 then .twoByte else .oneByte
  let entry := keyEntries rom table scancode
  if bda bdaKbdSts1 &&& kbsf1AltPressed ≠ 0 then entry.alt
  else if bda bdaKbdSts1 &&& kbsf1CtrlPressed ≠ 0 then entry.control
  else if bda bdaKbdSts1 &&& (kbsf1LshiftPressed ||| kbsf1RshiftPressed) ≠ 0 then entry.shift
  else entry.normal

def newTail (bda : Mem) : BitVec 16 :=
  if keyBufferTail bda + 2 = keyBufferEnd bda then keyBufferStart bda
  else keyBufferTail bda + 2

def storeKey (bda : Mem) (key : BitVec 16) : Mem × Option (BitVec 16) :=
  if newTail bda = keyBufferHead bda then (bda, none)
  else
    (write16 (write16 bda (keyBufferTail bda).toNat key) bdaKbdBufTail (newTail bda), some key)

def clearPrefixes (bda : Mem) : Mem :=
  write8 bda bdaKbdSts3 (bda bdaKbdSts3 &&& ~~~(kbsf3LastCodeE0 ||| kbsf3LastCodeE1))

def processScancode (rom : RomTail) (bda : Mem) (scancode : BitVec 8) : Mem × Option (BitVec 16) :=
  if scancode = 0xe0 then
    (write8 bda bdaKbdSts3 (bda bdaKbdSts3 ||| kbsf3LastCodeE0), none)
  else if scancode = 0xe1 then
    (write8 bda bdaKbdSts3 (bda bdaKbdSts3 ||| kbsf3LastCodeE1), none)
  else
    let (bda, lookup) := applyScanbit bda scancode
    if lookup then
      let key := selectKey rom bda scancode
      if key = 0xffff then (clearPrefixes bda, none)
      else
        let (bda, stored) := storeKey bda key
        (clearPrefixes bda, stored)
    else (clearPrefixes bda, none)

/-- The end of int16_00/int16_10 in start16.S: %bx is the head the call loaded before it
    waited. The end of the buffer is an assembly-time constant and the test is signed. -/
def int16EndWaitForKey (bda : Mem) (bx : BitVec 16) : Mem × BitVec 16 :=
  let ax := read16 bda bx.toNat
  if (bx + 2).sle 0x3c then (write16 bda bdaKbdBufHead (bx + 2), ax)
  else (write16 bda bdaKbdBufHead (BitVec.ofNat 16 bdaKbdBuf), ax)

def handleInt16Read (bda : Mem) : Mem × BitVec 16 :=
  let ax := read16 bda (keyBufferHead bda).toNat
  let head := keyBufferHead bda + 2
  if keyBufferEnd bda < head then (write16 bda bdaKbdBufHead (keyBufferStart bda), ax)
  else (write16 bda bdaKbdBufHead head, ax)

end MicrobootKeyboard
