import Bhyve.Ahci.Device
import Bhyve.Lib.BitMasks
import Bhyve.Lib.StepRuns

/-!
The interrupt state of the controller: PxIS and PxIE of each port, the global IS and GHC, the
legacy line and the messages. A port without a disk has no pr_sc to follow.
-/
namespace Ahci
open StepRuns BitMasks

def AhciPort.raised (p : AhciPort) : Bool := decide (p.is &&& p.ie ≠ 0)

def Hba.intrEnabled (h : Hba) : Bool := decide (h.ghc &&& ghcIe ≠ 0)

def mmask (ports nmsg i : Nat) : BitVec 32 :=
  if ports ≤ nmsg ∨ i + 1 < nmsg then 1#32 <<< (i % 32) else 0xffffffff#32 <<< (i % 32)

def generateMsis (pi : PciDevinst) (indices : List Nat) : PciDevinst :=
  indices.foldl pciGenerateMsi pi

variable (s : PciAhciSoftc)

def ahciGenerateIntr (mask : BitVec 32) : Hba :=
  let is := collect (fun i => (s.port i).raised) s.hba.ports s.hba.is
  let h := { s.hba with is := is }
  if is = 0 ∨ h.intrEnabled = false then
    if h.lintr then { h with ascPi := pciLintrDeassert h.ascPi, lintr := false } else h
  else
    let nmsg := pciMsiMaxmsgnum h.ascPi
    if nmsg = 0 then
      if h.lintr then h else { h with lintr := true, ascPi := pciLintrAssert h.ascPi }
    else
      let touched := fun i => decide (is &&& mask ≠ 0 ∧ mmask h.ports nmsg i &&& mask ≠ 0)
      { h with ascPi := generateMsis h.ascPi ((List.range nmsg).filter touched) }

def ahciPortIntr (h : Hba) (p : AhciPort) : Hba :=
  if p.raised = false then h
  else
    let nmsg := pciMsiMaxmsgnum h.ascPi
    if h.ports ≤ nmsg ∨ p.port + 1 < nmsg then
      let h := { h with is := add h.is p.port }
      if h.intrEnabled then { h with ascPi := pciGenerateMsi h.ascPi p.port } else h
    else if h.is.getLsbD p.port then h
    else
      let h := { h with is := add h.is p.port }
      if h.intrEnabled = false then h
      else if 0 < nmsg then { h with ascPi := pciGenerateMsi h.ascPi (nmsg - 1) }
      else if h.lintr then h
      else { h with lintr := true, ascPi := pciLintrAssert h.ascPi }

structure PortView where
  hba : Hba
  port : AhciPort

def fisArea : SataFisType → Option (Nat × Nat × BitVec 32)
  | .regd2h => some (0x40, 20, ixDhr)
  | .setdevbits => some (0x58, 8, ixSdb)
  | .piosetup => some (0x20, 20, ixPs)
  | _ => none

def fisByte (fis : List (BitVec 8)) (i : Nat) : BitVec 8 := fis.getD i 0

def fisFailed (fis : List (BitVec 8)) : Bool := decide (fisByte fis 2 &&& 0x01 ≠ 0)

def fisIrq (fis : List (BitVec 8)) (irq : BitVec 32) : BitVec 32 :=
  (if fisByte fis 1 &&& 0x40 ≠ 0 then irq else 0) ||| (if fisFailed fis then ixTfe else 0)

def ahciWriteFis (v : PortView) (ft : SataFisType) (fis : List (BitVec 8)) : PortView :=
  match v.port.rfis, fisArea ft with
  | some _, some (offset, len, irq) =>
      if v.port.cmd &&& cmdFre = 0 then v
      else
        let p := { v.port with
          waitforclear := v.port.waitforclear || fisFailed fis
          received := v.port.received ++ [(offset, fis.take len)] }
        if ~~~p.is &&& fisIrq fis irq ≠ 0 then
          let p := { p with is := p.is ||| fisIrq fis irq }
          ⟨ahciPortIntr v.hba p, p⟩
        else ⟨v.hba, p⟩
  | _, _ => v

def ahciWriteResetFisD2h (v : PortView) : PortView :=
  ahciWriteFis v .regd2h
    [fisRegd2h, 0, 0, 1, 1, if v.port.atapi then 0x14 else 0, if v.port.atapi then 0xeb else 0,
      0, 0, 0, 0, 0, 1, 0, 0, 0, 0, 0, 0, 0]

def ahciPortReset (v : PortView) : PortView :=
  let p := { v.port with serr := 0, sact := 0, xfermode := ataUdma6, multSectors := 128 }
  if p.bctx = false then
    ⟨v.hba, { p with ssts := ssDetNoDevice, sig := 0xffffffff, tfd := 0x7f }⟩
  else
    let spd := if p.sctl &&& scSpdMask ≠ 0 then p.sctl &&& scSpdMask else ssSpdGen3
    let tfd := 1#32 <<< 8 ||| ataSDsc ||| ataSDma
    ahciWriteResetFisD2h
      ⟨v.hba, { p with
        ssts := ssDetPhyOnline ||| ssIpmActive ||| spd
        sig := if p.atapi then sigAtapi else sigAta
        tfd := if p.atapi then tfd else tfd ||| ataSReady }⟩

def resetPort (v : PortView) : PortView :=
  let cmd := cmdSud ||| cmdPod
  ahciPortReset
    ⟨v.hba, { v.port with
      ie := 0, is := 0, cmd := if v.port.bctx then cmd ||| cmdCps else cmd, sctl := 0 }⟩

def PciAhciSoftc.store (i : Nat) (v : PortView) : PciAhciSoftc :=
  ⟨v.hba, Function.update s.port i v.port⟩

def PciAhciSoftc.view (i : Nat) : PortView := ⟨s.hba, s.port i⟩

def ahciReset (s : PciAhciSoftc) : PciAhciSoftc :=
  let h := { s.hba with ghc := ghcAe, is := 0 }
  let h := if h.lintr then { h with ascPi := pciLintrDeassert h.ascPi, lintr := false } else h
  (List.range h.ports).foldl (fun s i => s.store i (resetPort (s.view i))) { s with hba := h }

def ahciGhc : Nat := 0x04
def ahciIs : Nat := 0x08

def blockifQueuesz : Nat := 128 + 8 - 1

def emptyPort : AhciPort where
  bctx := false
  cmdLst := none
  rfis := none
  port := 0
  atapi := false
  reset := false
  waitforclear := false
  multSectors := 0
  xfermode := 0
  errCfis := List.replicate 20 0
  senseKey := 0
  asc := 0
  ccs := 0
  pending := 0
  clb := 0
  clbu := 0
  fb := 0
  fbu := 0
  is := 0
  ie := 0
  cmd := 0
  tfd := 0
  sig := 0
  ssts := 0
  sctl := 0
  serr := 0
  sact := 0
  ci := 0
  ioreq := fun _ => ⟨0, 0, 0, 0, false, false, 0, [], 0⟩
  ioqsz := 0
  iofhd := []
  iobhd := []
  queued := []
  received := []
  notes := []

def openPort (p : Nat) (atapi : Bool) : AhciPort :=
  { emptyPort with
    bctx := true
    port := p
    atapi := atapi
    ioqsz := blockifQueuesz
    iofhd := List.range blockifQueuesz }

def initPort (disks : List (Option Bool)) (p : Nat) : AhciPort :=
  match disks.getD p none with
  | none => emptyPort
  | some atapi => openPort p atapi

def emptyHba (ports : Nat) : Hba where
  ascPi := ⟨false, 0, false, .idle, []⟩
  ports := ports
  ghc := 0
  is := 0
  lintr := false

/-- A controller with a disk, which may be an ATAPI one, at some of its ports. -/
def pciAhciInit (disks : List (Option Bool)) : PciAhciSoftc :=
  let cut := disks.take maxPorts
  ahciReset ⟨emptyHba (max cut.length defPorts), initPort cut⟩

def portWriteIs (value : BitVec 32) (v : PortView) : Except Fault PortView :=
  let p := { v.port with is := v.port.is &&& ~~~value }
  if p.bctx then .ok ⟨ahciPortIntr v.hba p, p⟩ else .error .nullPointer

def portWriteIe (value : BitVec 32) (v : PortView) : Except Fault PortView :=
  let p := { v.port with ie := value &&& ieMask }
  if p.bctx then .ok ⟨ahciPortIntr v.hba p, p⟩ else .error .nullPointer

def portWriteSctl (value : BitVec 32) (v : PortView) : PortView :=
  let v := ⟨v.hba, { v.port with sctl := value }⟩
  if v.port.cmd &&& cmdSt = 0 ∧ value &&& scDetReset ≠ 0 then ahciPortReset v else v

def pciAhciHostWrite (offset : Nat) (value : BitVec 32) : PciAhciSoftc :=
  if offset = ahciGhc then
    if value &&& ghcHr ≠ 0 then ahciReset s
    else
      let ghc := if value &&& ghcIe ≠ 0 then s.hba.ghc ||| ghcIe else s.hba.ghc &&& ~~~ghcIe
      let s := { s with hba := { s.hba with ghc := ghc } }
      { s with hba := ahciGenerateIntr s 0xffffffff }
  else if offset = ahciIs then
    let s := { s with hba := { s.hba with is := s.hba.is &&& ~~~value } }
    { s with hba := ahciGenerateIntr s value }
  else s

/-- What acts on the interrupt state. Everything else the controller does leaves any values in
    the rfis and the cmd of a port. -/
inductive IntrEvent where
  | deliver (i : Nat) (ft : SataFisType) (fis : List (BitVec 8))
  | receive (i : Nat) (rfis : Option Nat) (cmd : BitVec 32)
  | portIs (i : Nat) (value : BitVec 32)
  | portIe (i : Nat) (value : BitVec 32)
  | portSctl (i : Nat) (value : BitVec 32)
  | hostWrite (offset : Nat) (value : BitVec 32)
  | msi (enable : Bool) (mme : BitVec 3)
  | intx (disable : Bool)

def atPort (i : Nat) (act : PortView → Except Fault PortView) : Except Fault PciAhciSoftc :=
  if i < s.hba.ports then
    match act (s.view i) with
    | .ok v => .ok (s.store i v)
    | .error fault => .error fault
  else .ok s

def receive (rfis : Option Nat) (cmd : BitVec 32) (v : PortView) : PortView :=
  ⟨v.hba, { v.port with rfis := rfis, cmd := cmd }⟩

def deliver (ft : SataFisType) (fis : List (BitVec 8)) (v : PortView) : Except Fault PortView :=
  if v.port.bctx then .ok (ahciWriteFis v ft fis) else .error .nullPointer

def PciAhciSoftc.withPi (pi : PciDevinst) : PciAhciSoftc :=
  { s with hba := { s.hba with ascPi := pi } }

def intrApply (s : PciAhciSoftc) : IntrEvent → Except Fault PciAhciSoftc
  | .deliver i ft fis => atPort s i (deliver ft fis)
  | .receive i rfis cmd => atPort s i fun v => .ok (receive rfis cmd v)
  | .portIs i value => atPort s i (portWriteIs value)
  | .portIe i value => atPort s i (portWriteIe value)
  | .portSctl i value => atPort s i fun v => .ok (portWriteSctl value v)
  | .hostWrite offset value => .ok (pciAhciHostWrite s offset value)
  | .msi enable mme => .ok (s.withPi (msicapCfgwrite s.hba.ascPi enable mme))
  | .intx disable => .ok (s.withPi (pciLintrUpdate { s.hba.ascPi with intxDis := disable }))

def intrStep (e : IntrEvent) : Except Fault PciAhciSoftc :=
  intrApply (s.withPi { s.hba.ascPi with msis := [] }) e
end Ahci
