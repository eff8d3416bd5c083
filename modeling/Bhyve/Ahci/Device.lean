import Mathlib.Data.BitVec

/-!
The AHCI controller that pci_ahci.c emulates: its registers, its ports with their lists of block
requests, and the part of a PCI device through which it interrupts the guest.
-/
namespace Ahci

def defPorts : Nat := 6
def maxPorts : Nat := 32

def ghcAe : BitVec 32 := 0x80000000
def ghcIe : BitVec 32 := 0x00000002
def ghcHr : BitVec 32 := 0x00000001

def ixDhr : BitVec 32 := 0x00000001
def ixPs : BitVec 32 := 0x00000002
def ixSdb : BitVec 32 := 0x00000008
def ixTfe : BitVec 32 := 0x40000000
def ieMask : BitVec 32 := 0xFDC000FF

def cmdSt : BitVec 32 := 0x00000001
def cmdSud : BitVec 32 := 0x00000002
def cmdPod : BitVec 32 := 0x00000004
def cmdClo : BitVec 32 := 0x00000008
def cmdFre : BitVec 32 := 0x00000010
def cmdCcsMask : BitVec 32 := 0x00001f00
def cmdCcsShift : Nat := 8
def cmdFr : BitVec 32 := 0x00004000
def cmdCr : BitVec 32 := 0x00008000
def cmdCps : BitVec 32 := 0x00010000
def cmdApste : BitVec 32 := 0x00800000
def cmdAtapi : BitVec 32 := 0x01000000
def cmdDlae : BitVec 32 := 0x02000000
def cmdAlpe : BitVec 32 := 0x04000000
def cmdAsp : BitVec 32 := 0x08000000
def cmdIccMask : BitVec 32 := 0xf0000000

def ataSError : BitVec 32 := 0x01
def ataSDrq : BitVec 32 := 0x08
def ataSDsc : BitVec 32 := 0x10
def ataSDma : BitVec 32 := 0x20
def ataSReady : BitVec 32 := 0x40
def ataSBusy : BitVec 32 := 0x80
def ataEAbort : BitVec 32 := 0x04

def ssDetNoDevice : BitVec 32 := 0x00000000
def ssDetPhyOnline : BitVec 32 := 0x00000003
def ssSpdGen3 : BitVec 32 := 0x00000030
def ssIpmActive : BitVec 32 := 0x00000100
def scDetReset : BitVec 32 := 0x00000001
def scSpdMask : BitVec 32 := 0x000000f0

def sigAta : BitVec 32 := 0x00000101
def sigAtapi : BitVec 32 := 0xeb140101
def ataUdma6 : BitVec 8 := 0x46

inductive SataFisType where
  | regh2d
  | regd2h
  | dmaact
  | dmasetup
  | data
  | bist
  | piosetup
  | setdevbits
  deriving DecidableEq

def fisRegh2d : BitVec 8 := 0x27
def fisRegd2h : BitVec 8 := 0x34
def fisPiosetup : BitVec 8 := 0x5f
def fisSetdevbits : BitVec 8 := 0xa1

inductive Lintr where
  | idle
  | pending
  | asserted
  deriving DecidableEq

/-- What the controller uses of its PCI device. The messages it has sent are kept in their order. -/
structure PciDevinst where
  msiEnabled : Bool
  maxmsgnum : Nat
  intxDis : Bool
  lintr : Lintr
  msis : List Nat

structure AhciIoreq where
  cfis : Nat
  len : BitVec 32
  done : BitVec 32
  slot : Nat
  more : Bool
  readop : Bool
  brOffset : BitVec 64
  brIov : List (Option Nat × BitVec 32)
  brResid : BitVec 64

/-- What a command in a slot came to, and the bits of CI and SACT that were cleared for it. -/
inductive Note where
  | issued (slot : Nat) (ncq : Bool)
  | clearedCi (slot : Nat)
  | clearedSact (slot : Nat)
  | completed (slot : Nat) (ok : Bool)
  | cancelled (slot : Nat)
  deriving DecidableEq

/-- A port. Its bctx and its pr_sc are set together, or are both NULL. The requests that the block
    device has taken and not answered are kept in queued, the FISes written to the area of rfis
    with their offsets, and the notes in their order. -/
structure AhciPort where
  bctx : Bool
  cmdLst : Option Nat
  rfis : Option Nat
  port : Nat
  atapi : Bool
  reset : Bool
  waitforclear : Bool
  multSectors : BitVec 8
  xfermode : BitVec 8
  errCfis : List (BitVec 8)
  senseKey : BitVec 8
  asc : BitVec 8
  ccs : Fin 32
  pending : BitVec 32
  clb : BitVec 32
  clbu : BitVec 32
  fb : BitVec 32
  fbu : BitVec 32
  is : BitVec 32
  ie : BitVec 32
  cmd : BitVec 32
  tfd : BitVec 32
  sig : BitVec 32
  ssts : BitVec 32
  sctl : BitVec 32
  serr : BitVec 32
  sact : BitVec 32
  ci : BitVec 32
  ioreq : Nat → AhciIoreq
  ioqsz : Nat
  iofhd : List Nat
  iobhd : List Nat
  queued : List Nat
  received : List (Nat × List (BitVec 8))
  notes : List Note

structure Hba where
  ascPi : PciDevinst
  ports : Nat
  ghc : BitVec 32
  is : BitVec 32
  lintr : Bool

structure PciAhciSoftc where
  hba : Hba
  port : Nat → AhciPort

inductive Fault where
  | nullPointer
  | noIoreq
  | assertion
  | hangs
  deriving DecidableEq

def pciMsiMaxmsgnum (pi : PciDevinst) : Nat := if pi.msiEnabled then pi.maxmsgnum else 0

def pciGenerateMsi (pi : PciDevinst) (index : Nat) : PciDevinst :=
  if pi.msiEnabled ∧ index < pciMsiMaxmsgnum pi then { pi with msis := pi.msis ++ [index] } else pi

def pciLintrPermitted (pi : PciDevinst) : Bool := !(pi.msiEnabled || pi.intxDis)

def pciLintrAssert (pi : PciDevinst) : PciDevinst :=
  if pi.lintr = .idle then
    { pi with lintr := if pciLintrPermitted pi then .asserted else .pending }
  else pi

def pciLintrDeassert (pi : PciDevinst) : PciDevinst := { pi with lintr := .idle }

def pciLintrUpdate (pi : PciDevinst) : PciDevinst :=
  if pi.lintr = .asserted ∧ pciLintrPermitted pi = false then { pi with lintr := .pending }
  else if pi.lintr = .pending ∧ pciLintrPermitted pi = true then { pi with lintr := .asserted }
  else pi

def msicapCfgwrite (pi : PciDevinst) (enable : Bool) (mme : BitVec 3) : PciDevinst :=
  pciLintrUpdate
    { pi with msiEnabled := enable, maxmsgnum := if enable then 2 ^ mme.toNat else 0 }

section
variable (pi : PciDevinst)
include pi

theorem generate_msi_msis (i : Nat) : (pciGenerateMsi pi i).msis =
      if i < pciMsiMaxmsgnum pi then pi.msis ++ [i] else pi.msis := by
  unfold pciGenerateMsi pciMsiMaxmsgnum
  cases pi.msiEnabled <;> simp [apply_ite PciDevinst.msis]

theorem generate_msi_nmsg (i : Nat) :
    pciMsiMaxmsgnum (pciGenerateMsi pi i) = pciMsiMaxmsgnum pi := by
  unfold pciGenerateMsi
  split <;> rfl

theorem generate_msi_permitted (i : Nat) :
    pciLintrPermitted (pciGenerateMsi pi i) = pciLintrPermitted pi := by
  unfold pciGenerateMsi
  split <;> rfl

theorem generate_msi_lintr (i : Nat) : (pciGenerateMsi pi i).lintr = pi.lintr := by
  unfold pciGenerateMsi
  split <;> rfl

theorem lintr_assert_msis : (pciLintrAssert pi).msis = pi.msis := by
  unfold pciLintrAssert
  split <;> rfl

theorem lintr_assert_nmsg : pciMsiMaxmsgnum (pciLintrAssert pi) = pciMsiMaxmsgnum pi := by
  unfold pciLintrAssert
  split <;> rfl

theorem lintr_assert_permitted : pciLintrPermitted (pciLintrAssert pi) = pciLintrPermitted pi := by
  unfold pciLintrAssert
  split <;> rfl

end
end Ahci
