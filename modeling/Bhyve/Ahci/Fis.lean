import Bhyve.Ahci.Interrupts

namespace Ahci
open BitMasks

abbrev Cfis := Nat → BitVec 8

def AhciPort.note (p : AhciPort) (n : Note) : AhciPort := { p with notes := p.notes ++ [n] }

def clearCi (p : AhciPort) (slot : Nat) : AhciPort :=
  { p with ci := remove p.ci slot, notes := p.notes ++ [.clearedCi slot] }

def clearSact (p : AhciPort) (slot : Nat) : AhciPort :=
  { p with sact := remove p.sact slot, notes := p.notes ++ [.clearedSact slot] }

def failedTfd (tfd : BitVec 32) : Bool := decide (tfd &&& ataSError ≠ 0)

def cfisBytes (cfis : Cfis) (first count : Nat) : List (BitVec 8) :=
  (List.range count).map fun i => cfis (first + i)

def setErrCfis (p : AhciPort) (first status error : BitVec 8) (cfis : Cfis) : AhciPort :=
  { p with errCfis := [first, fisByte p.errCfis 1, status, error] ++ cfisBytes cfis 4 16 }

def ahciWriteFisPiosetup (v : PortView) : PortView :=
  ahciWriteFis v .piosetup (fisPiosetup :: List.replicate 19 0)

def ahciWriteFisSdb (v : PortView) (slot : Nat) (cfis : Cfis) (tfd : BitVec 32) : PortView :=
  let error := (tfd >>> 8).setWidth 8
  let failed := failedTfd tfd
  let tfd := tfd &&& 0x77
  let done := BitVec.twoPow 32 slot
  let p :=
    if failed then
      setErrCfis v.port (BitVec.ofNat 8 slot) (tfd.setWidth 8) error cfis
    else clearSact v.port slot
  let p := { p with tfd := (p.tfd &&& ~~~0x77) ||| tfd }
  ahciWriteFis ⟨v.hba, p.note (.completed slot !failed)⟩ .setdevbits
    ([fisSetdevbits, 0x40, tfd.setWidth 8, error] ++
      if failed then [0, 0, 0, 0]
      else [done.setWidth 8, (done >>> 8).setWidth 8, (done >>> 16).setWidth 8,
        (done >>> 24).setWidth 8])

def ahciWriteFisD2h (v : PortView) (slot : Nat) (cfis : Cfis) (tfd : BitVec 32) : PortView :=
  let error := (tfd >>> 8).setWidth 8
  let failed := failedTfd tfd
  let p :=
    if failed then setErrCfis v.port 0x80 (tfd.setWidth 8) error cfis else clearCi v.port slot
  let p := { p with tfd := tfd }
  ahciWriteFis ⟨v.hba, p.note (.completed slot !failed)⟩ .regd2h
    ([fisRegd2h, 0x40, tfd.setWidth 8, error] ++ cfisBytes cfis 4 10 ++ List.replicate 6 0)

def ahciWriteFisD2hNcq (v : PortView) (slot : Nat) : PortView :=
  let tfd := ataSReady ||| ataSDsc
  ahciWriteFis ⟨v.hba, clearCi { v.port with tfd := tfd } slot⟩ .regd2h
    ([fisRegd2h, 0, tfd.setWidth 8, 0] ++ List.replicate 16 0)

end Ahci
