import Bhyve.Lib.BoundedFifo
import Bhyve.Lib.StepRuns

/-!
The 16550 of uart_emul.c: its registers, the receive FIFO of 1 or 16 bytes, the event that tells of
input on the tty, and the interrupt line. Each function runs under the lock of the uart.
-/
namespace Uart
open BoundedFifo

abbrev Byte := BitVec 8

def regData : Int := 0
def regIer : Int := 1
def regIir : Int := 2
def regFcr : Int := 2
def regLcr : Int := 3
def regMcr : Int := 4
def regLsr : Int := 5
def regMsr : Int := 6
def regScr : Int := 7
def regDll : Int := 0
def regDlh : Int := 1

def ierErxrdy : Byte := 0x1
def ierEtxrdy : Byte := 0x2
def ierErls : Byte := 0x4
def ierEmsc : Byte := 0x8
def iirFifoMask : Byte := 0xc0
def iirRxtout : Byte := 0xc
def iirRls : Byte := 0x6
def iirTxrdy : Byte := 0x2
def iirNopend : Byte := 0x1
def iirMlsc : Byte := 0x0
def fcrEnable : Byte := 0x1
def fcrRcvRst : Byte := 0x2
def fcrDma : Byte := 0x8
def fcrRxMask : Byte := 0xc0
def lcrDlab : Byte := 0x80
def mcrDtr : Byte := 0x1
def mcrRts : Byte := 0x2
def mcrOut1 : Byte := 0x4
def mcrOut2 : Byte := 0x8
def mcrLoopback : Byte := 0x10
def lsrRxrdy : Byte := 0x1
def lsrOe : Byte := 0x2
def lsrThre : Byte := 0x20
def lsrTemt : Byte := 0x40
def msrDcts : Byte := 0x1
def msrDdsr : Byte := 0x2
def msrTeri : Byte := 0x4
def msrDdcd : Byte := 0x8
def msrCts : Byte := 0x10
def msrDsr : Byte := 0x20
def msrRi : Byte := 0x40
def msrDcd : Byte := 0x80
def msrDeltaMask : Byte := 0x0f
def fifosz : Nat := 16
def defaultRclk : Nat := 1843200
def defaultBaud : Nat := 9600

/-- How a byte came in: read from the tty by uart_drain, in loopback mode or out of it, or looped
    back from a write of the guest. -/
inductive Origin where
  | tty
  | ttyLoopback
  | looped
deriving DecidableEq, Repr

structure UartSoftc where
  ier : Byte
  lcr : Byte
  mcr : Byte
  lsr : Byte
  msr : Byte
  fcr : Byte
  scr : Byte
  dll : Byte
  dlh : Byte
  rxfifo : Fifo Byte
  size : Nat
  opened : Bool
  threIntPending : Bool
  /-- The state of the event on the tty. -/
  mevEnabled : Bool
  /-- How the interrupt pin was last driven. -/
  asserted : Bool
  /-- What has come in since the last reset of the FIFO. -/
  received : List (Origin × Byte)
  /-- What the guest has read from the data register since then, with something in the FIFO. -/
  readOut : List Byte
  /-- What has gone to the tty. -/
  sent : List Byte

variable (sc : UartSoftc)

/-- The flush reads from the tty what nobody has read, for nobody. -/
def rxfifoReset (size : Nat) : UartSoftc :=
  { sc with
    rxfifo := ⟨fun _ => 0, 0, 0, 0⟩
    size := size
    mevEnabled := sc.opened || sc.mevEnabled
    received := []
    readOut := [] }

def rxfifoAvailable (sc : UartSoftc) : Bool := decide (sc.rxfifo.num < sc.size)

def rxfifoNumchars (sc : UartSoftc) : Nat := sc.rxfifo.num

def rxfifoPutchar (ch : Byte) : Option UartSoftc :=
  if sc.rxfifo.num < sc.size then
    let sc := { sc with rxfifo := put sc.size sc.rxfifo ch }
    some { sc with mevEnabled := sc.mevEnabled && (rxfifoAvailable sc || !sc.opened) }
  else none

def rxfifoGetchar (sc : UartSoftc) : Option (Byte × UartSoftc) :=
  let wasfull := !rxfifoAvailable sc
  (get sc.size sc.rxfifo).map fun got =>
    (got.1, { sc with rxfifo := got.2, mevEnabled := sc.mevEnabled || (wasfull && sc.opened) })

def modemStatus (mcr : Byte) : Byte :=
  if mcr &&& mcrLoopback ≠ 0 then
    (if mcr &&& mcrRts ≠ 0 then msrCts else 0) |||
      (if mcr &&& mcrDtr ≠ 0 then msrDsr else 0) |||
      (if mcr &&& mcrOut1 ≠ 0 then msrRi else 0) |||
      (if mcr &&& mcrOut2 ≠ 0 then msrDcd else 0)
  else msrDcd ||| msrDsr

def uartIntrReason (sc : UartSoftc) : Byte :=
  if sc.lsr &&& lsrOe ≠ 0 ∧ sc.ier &&& ierErls ≠ 0 then iirRls
  else if 0 < rxfifoNumchars sc ∧ sc.ier &&& ierErxrdy ≠ 0 then iirRxtout
  else if sc.threIntPending = true ∧ sc.ier &&& ierEtxrdy ≠ 0 then iirTxrdy
  else if sc.msr &&& msrDeltaMask ≠ 0 ∧ sc.ier &&& ierEmsc ≠ 0 then iirMlsc
  else iirNopend

def uartToggleIntr (sc : UartSoftc) : UartSoftc :=
  { sc with asserted := decide (uartIntrReason sc ≠ iirNopend) }

def uartReset (sc : UartSoftc) : UartSoftc :=
  let divisor := BitVec.ofNat 16 (defaultRclk / defaultBaud / 16)
  let sc := { sc with
    dll := divisor.truncate 8
    dlh := (divisor >>> 16).truncate 8
    msr := modemStatus sc.mcr }
  rxfifoReset sc 1

def uartInit : UartSoftc :=
  uartReset
    { ier := 0, lcr := 0, mcr := 0, lsr := 0, msr := 0, fcr := 0, scr := 0, dll := 0, dlh := 0
      rxfifo := ⟨fun _ => 0, 0, 0, 0⟩, size := 0, opened := false, threIntPending := false
      mevEnabled := false, asserted := false, received := [], readOut := []
      sent := [] }

def uartSetBackend (opened : Bool) : UartSoftc :=
  if opened then { sc with opened := true, mevEnabled := true } else sc

def UartSoftc.cameIn (origin : Origin) (ch : Byte) : UartSoftc :=
  { sc with received := sc.received ++ [(origin, ch)] }

/-- The list is what the calls of ttyread find, and after it they return -1. -/
def drainLoop : UartSoftc → List Byte → UartSoftc
  | sc, [] => sc
  | sc, ch :: rest =>
      if rxfifoAvailable sc then
        drainLoop (((rxfifoPutchar sc ch).getD sc).cameIn .tty ch) rest
      else sc

def uartDrain (input : List Byte) : UartSoftc :=
  if sc.mcr &&& mcrLoopback ≠ 0 then
    match input with
    | [] => sc
    | ch :: _ => sc.cameIn .ttyLoopback ch
  else uartToggleIntr (drainLoop sc input)

def writeData (value : Byte) : UartSoftc :=
  let sc :=
    if sc.mcr &&& mcrLoopback ≠ 0 then
      match rxfifoPutchar sc value with
      | some sc => sc.cameIn .looped value
      | none => { sc with lsr := sc.lsr ||| lsrOe }
    else if sc.opened then { sc with sent := sc.sent ++ [value] }
    else sc
  { sc with threIntPending := true }

def writeIer (value : Byte) : UartSoftc :=
  { sc with
    threIntPending := sc.threIntPending ||
      (decide (sc.ier &&& ierEtxrdy = 0) && decide (value &&& ierEtxrdy ≠ 0))
    ier := value &&& 0x0f }

def writeFcr (value : Byte) : UartSoftc :=
  let sc :=
    if (sc.fcr &&& fcrEnable) ^^^ (value &&& fcrEnable) ≠ 0 then
      rxfifoReset sc (if value &&& fcrEnable ≠ 0 then fifosz else 1)
    else sc
  if value &&& fcrEnable = 0 then { sc with fcr := 0 }
  else
    let sc := if value &&& fcrRcvRst ≠ 0 then rxfifoReset sc fifosz else sc
    { sc with fcr := value &&& (fcrEnable ||| fcrDma ||| fcrRxMask) }

def msrDeltas (old msr : Byte) : Byte :=
  (if (msr &&& msrCts) ^^^ (old &&& msrCts) ≠ 0 then msrDcts else 0) |||
    (if (msr &&& msrDsr) ^^^ (old &&& msrDsr) ≠ 0 then msrDdsr else 0) |||
    (if (msr &&& msrDcd) ^^^ (old &&& msrDcd) ≠ 0 then msrDdcd else 0) |||
    (if old &&& msrRi ≠ 0 ∧ msr &&& msrRi = 0 then msrTeri else 0)

def writeMcr (value : Byte) : UartSoftc :=
  let mcr := value &&& 0x1f
  let msr := modemStatus mcr
  { sc with mcr := mcr, msr := ((sc.msr ||| msrDeltas sc.msr msr) &&& msrDeltaMask) ||| msr }

def writeRegister (offset : Int) (value : Byte) : UartSoftc :=
  if sc.lcr &&& lcrDlab ≠ 0 ∧ offset = regDll then { sc with dll := value }
  else if sc.lcr &&& lcrDlab ≠ 0 ∧ offset = regDlh then { sc with dlh := value }
  else if offset = regData then writeData sc value
  else if offset = regIer then writeIer sc value
  else if offset = regFcr then writeFcr sc value
  else if offset = regLcr then { sc with lcr := value }
  else if offset = regMcr then writeMcr sc value
  else if offset = regScr then { sc with scr := value }
  else sc

def uartWrite (offset : Int) (value : Byte) : UartSoftc :=
  uartToggleIntr (writeRegister sc offset value)

/-- An empty FIFO gives the guest the low byte of -1. -/
def readData (sc : UartSoftc) : UartSoftc × Byte :=
  match rxfifoGetchar sc with
  | some (reg, sc) => ({ sc with readOut := sc.readOut ++ [reg] }, reg)
  | none => (sc, 0xff)

def readIir (sc : UartSoftc) : UartSoftc × Byte :=
  let iir := if sc.fcr &&& fcrEnable ≠ 0 then iirFifoMask else 0
  let intrReason := uartIntrReason sc
  ({ sc with threIntPending := sc.threIntPending && decide (intrReason ≠ iirTxrdy) },
    iir ||| intrReason)

def readLsr (sc : UartSoftc) : UartSoftc × Byte :=
  let lsr := sc.lsr ||| (lsrTemt ||| lsrThre)
  let lsr := if 0 < rxfifoNumchars sc then lsr ||| lsrRxrdy else lsr &&& ~~~lsrRxrdy
  ({ sc with lsr := lsr &&& ~~~lsrOe }, lsr)

def readRegister (offset : Int) : UartSoftc × Byte :=
  if sc.lcr &&& lcrDlab ≠ 0 ∧ offset = regDll then (sc, sc.dll)
  else if sc.lcr &&& lcrDlab ≠ 0 ∧ offset = regDlh then (sc, sc.dlh)
  else if offset = regData then readData sc
  else if offset = regIer then (sc, sc.ier)
  else if offset = regIir then readIir sc
  else if offset = regLcr then (sc, sc.lcr)
  else if offset = regMcr then (sc, sc.mcr)
  else if offset = regLsr then readLsr sc
  else if offset = regMsr then ({ sc with msr := sc.msr &&& ~~~msrDeltaMask }, sc.msr)
  else if offset = regScr then (sc, sc.scr)
  else (sc, 0xff)

def uartRead (offset : Int) : UartSoftc × Byte :=
  let (sc, reg) := readRegister sc offset
  (uartToggleIntr sc, reg)

inductive Event where
  | read (offset : Int)
  | write (offset : Int) (value : Byte)
  | drain (input : List Byte)

def step (sc : UartSoftc) : Event → UartSoftc
  | .read offset => (uartRead sc offset).1
  | .write offset value => uartWrite sc offset value
  | .drain input => if sc.opened then uartDrain sc input else sc

def start (opened : Bool) : UartSoftc := uartSetBackend uartInit opened

def run (opened : Bool) (events : List Event) : UartSoftc :=
  StepRuns.run step (start opened) events

end Uart
