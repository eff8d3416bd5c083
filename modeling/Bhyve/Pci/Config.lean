import Bhyve.Lib.ByteMemory
import Bhyve.Lib.MaskedWrites

/-!
The configuration space of an emulated PCI device, as pci_emul.c keeps it: base address registers,
capabilities with the state of MSI and MSI-X behind them, and writes of the guest. What a write
does outside of the device is a list of actions.
-/
namespace Pci
open ByteMemory MaskedWrites BitVec

inductive BarType where
  | none
  | io
  | mem32
  | mem64
  | memhi64
deriving DecidableEq

structure Bar where
  type : BarType
  size : BitVec 64
  addr : BitVec 64
deriving DecidableEq

structure Msi where
  enabled : Bool
  addr : BitVec 64
  msgData : BitVec 64
  maxmsgnum : Nat

structure Msix where
  enabled : Bool
  functionMask : Bool

structure Devinst where
  cfgdata : Mem
  prevcap : Nat
  capend : Nat
  msi : Msi
  msix : Msix
  bar : Nat → Bar

/-- What the code does for a device elsewhere: register_bar and unregister_bar, with the register
    as it is then, and pci_lintr_update. -/
inductive Action where
  | register (idx : Nat) (bar : Bar)
  | unregister (idx : Nat) (bar : Bar)
  | lintrUpdate
deriving DecidableEq

def pciRegmax : Nat := 255
def pciBarmax : Nat := 5
def pcirCommand : Nat := 0x04
def pcirStatus : Nat := 0x06
def pcirRevid : Nat := 0x08
def pcirBar (idx : Nat) : Nat := 0x10 + 4 * idx
def pcirCapPtr : Nat := 0x34
def capStartOffset : Nat := 0x40

/-- PCIM_CMD_PORTEN, PCIM_CMD_MEMEN and PCIM_CMD_INTxDIS as bits of the command register, and
    PCIM_STATUS_CAPPRESENT as one of the status register. -/
def cmdPorten : Nat := 0
def cmdMemen : Nat := 1
def cmdIntxDis : Nat := 10
def statusCappresent : Nat := 4

def pciyMsi : BitVec 8 := 0x05
def pciyExpress : BitVec 8 := 0x10
def pciyMsix : BitVec 8 := 0x11

def msictrlEnable : BitVec 16 := 0x0001
def msictrlMmcMask : BitVec 16 := 0x000e
def msictrlMmeMask : BitVec 16 := 0x0070
def msictrl64bit : BitVec 16 := 0x0080
def msixctrlEnable : BitVec 16 := 0x8000
def msixctrlFunctionMask : BitVec 16 := 0x4000
def msixctrlTableSize : BitVec 16 := 0x07ff

def barIoSpace : BitVec 64 := 0x1
def barMem64 : BitVec 64 := 0x4
def barMemPrefetch : BitVec 64 := 0x8

variable (cfg : Mem)

def cfgwrite (coff : Nat) (val : BitVec 32) (bytes : Nat) : Mem :=
  if bytes = 1 then write8 cfg coff (val.setWidth 8)
  else if bytes = 2 then write16 cfg coff (val.setWidth 16)
  else write32 cfg coff val

def cfgread (coff : Nat) (bytes : Nat) : BitVec 32 :=
  if bytes = 1 then (cfg coff).setWidth 32
  else if bytes = 2 then (read16 cfg coff).setWidth 32
  else read32 cfg coff

theorem cfgwrite_other (val : BitVec 32) {coff bytes x : Nat}
    (width : bytes = 1 ∨ bytes = 2 ∨ bytes = 4) (outside : x < coff ∨ coff + bytes ≤ x) :
    cfgwrite cfg coff val bytes x = cfg x := by
  rcases width with rfl | rfl | rfl
  · exact write8_other _ _ (by omega)
  · exact write16_other _ _ (by omega) (by omega)
  · exact write32_other _ _ outside

theorem byte_of_half (v : BitVec 32) {start i : Nat} (inside : i + 8 ≤ 16) :
    (v.extractLsb' start 16).extractLsb' i 8 = v.extractLsb' (start + i) 8 := by
  apply eq_of_getLsbD_eq
  intro j bound
  have within : i + j < 16 := by omega
  simp [bound, within, Nat.add_assoc]

theorem cfgwrite_at (val : BitVec 32) {coff bytes i : Nat}
    (width : bytes = 1 ∨ bytes = 2 ∨ bytes = 4) (inside : i < bytes) :
    cfgwrite cfg coff val bytes (coff + i) = val.extractLsb' (8 * i) 8 := by
  rcases width with rfl | rfl | rfl
  · obtain rfl : i = 0 := by omega
    show write8 cfg coff (val.setWidth 8) coff = _
    rw [write8_same]
    rfl
  · show write16 cfg coff (val.setWidth 16) (coff + i) = _
    rw [show val.setWidth 16 = val.extractLsb' 0 16 from rfl, write16]
    obtain rfl | rfl : i = 0 ∨ i = 1 := by omega
    · rw [write8_other _ _ (by omega), Nat.add_zero, write8_same, byte_of_half _ (by decide)]
    · rw [write8_same, byte_of_half _ (by decide)]
  · show write32 cfg coff val (coff + i) = _
    rw [write32]
    obtain rfl | rfl | rfl | rfl : i = 0 ∨ i = 1 ∨ i = 2 ∨ i = 3 := by omega
    · rw [write16_other _ _ (by omega) (by omega), write16, write8_other _ _ (by omega),
        Nat.add_zero, write8_same, byte_of_half _ (by decide)]
    · rw [write16_other _ _ (by omega) (by omega), write16, write8_same, byte_of_half _ (by decide)]
    · rw [write16, write8_other _ _ (by omega), write8_same, byte_of_half _ (by decide)]
    · rw [write16, write8_same, byte_of_half _ (by decide)]

theorem cfgread_byte {coff bytes i : Nat}
    (width : bytes = 1 ∨ bytes = 2 ∨ bytes = 4) (inside : i < bytes) :
    (cfgread cfg coff bytes).extractLsb' (8 * i) 8 = cfg (coff + i) := by
  have word : ∀ x y : BitVec 8, (x ++ y : BitVec 16).extractLsb' 0 8 = y ∧
      (x ++ y : BitVec 16).extractLsb' 8 8 = x := fun x y =>
    ⟨extractLsb'_append_eq_right, extractLsb'_append_eq_left⟩
  rcases width with rfl | rfl | rfl
  · obtain rfl : i = 0 := by omega
    show ((cfg coff).setWidth 32).extractLsb' 0 8 = cfg coff
    rw [extractLsb'_setWidth_of_le (by decide)]
    exact extractLsb'_eq_self
  · show ((read16 cfg coff).setWidth 32).extractLsb' (8 * i) 8 = _
    obtain rfl | rfl : i = 0 ∨ i = 1 := by omega
    · exact (word _ _).1
    · exact (word _ _).2
  · show (read16 cfg (coff + 2) ++ read16 cfg coff : BitVec 32).extractLsb' (8 * i) 8 = _
    obtain rfl | rfl | rfl | rfl : i = 0 ∨ i = 1 ∨ i = 2 ∨ i = 3 := by omega
    · rw [extractLsb'_append_eq_of_add_le (by decide)]
      exact (word _ _).1
    · rw [extractLsb'_append_eq_of_add_le (by decide)]
      exact (word _ _).2
    · rw [extractLsb'_append_eq_of_le (by decide)]
      exact (word _ _).1
    · rw [extractLsb'_append_eq_of_le (by decide)]
      exact (word _ _).2

def Devinst.command (d : Devinst) : BitVec 16 := read16 d.cfgdata pcirCommand

def Devinst.status (d : Devinst) : BitVec 16 := read16 d.cfgdata pcirStatus

def porten (d : Devinst) : Bool := d.command.getLsbD cmdPorten

def memen (d : Devinst) : Bool := d.command.getLsbD cmdMemen

variable (d : Devinst)

/-- The low half of a 64 bit address is that of the low register, whatever is above it in addr. -/
def updateBarAddress (addr : BitVec 64) (idx : Nat) (type : BarType) : Devinst × List Action :=
  let bar := d.bar idx
  let decode := if bar.type = .io then porten d else memen d
  let moved : BitVec 64 :=
    match type with
    | .mem64 => (bar.addr &&& ~~~0xffffffff) ||| addr
    | .memhi64 => (bar.addr &&& 0xffffffff) ||| addr
    | _ => addr
  let new := { bar with addr := moved }
  ({ d with bar := Function.update d.bar idx new },
    if decode then [.unregister idx bar, .register idx new] else [])

def barWrite (idx : Nat) (eax : BitVec 32) : Devinst × List Action :=
  let bar := d.bar idx
  let mask := ~~~(bar.size - 1)
  let (d, actions, value) : Devinst × List Action × BitVec 64 :=
    match bar.type with
    | .none => ({ d with bar := Function.update d.bar idx { bar with addr := 0 } }, [], 0)
    | .io =>
        let addr := eax.setWidth 64 &&& mask &&& 0xffff
        let (d, actions) := if addr ≠ bar.addr then updateBarAddress d addr idx .io else (d, [])
        (d, actions, addr ||| barIoSpace)
    | .mem32 =>
        let addr := eax.setWidth 64 &&& mask
        let (d, actions) := if addr ≠ bar.addr then updateBarAddress d addr idx .mem32 else (d, [])
        (d, actions, addr)
    | .mem64 =>
        let addr := eax.setWidth 64 &&& mask
        let (d, actions) :=
          if addr ≠ (bar.addr.setWidth 32).setWidth 64 then updateBarAddress d addr idx .mem64
          else (d, [])
        (d, actions, addr ||| (barMem64 ||| barMemPrefetch))
    | .memhi64 =>
        let mask := ~~~((d.bar (idx - 1)).size - 1)
        let addr := (eax.setWidth 64 <<< 32) &&& mask
        let value := addr >>> 32
        let (d, actions) :=
          if value ≠ (d.bar (idx - 1)).addr >>> 32 then updateBarAddress d addr (idx - 1) .memhi64
          else (d, [])
        (d, actions, value)
  ({ d with cfgdata := write32 d.cfgdata (pcirBar idx) (value.setWidth 32) }, actions)

def barChanged (changed new : BitVec 16) (idx : Nat) (bar : Bar) : Option Action :=
  match bar.type with
  | .none | .memhi64 => .none
  | .io =>
      if changed.getLsbD cmdPorten then
        some (if new.getLsbD cmdPorten then .register idx bar else .unregister idx bar)
      else .none
  | .mem32 | .mem64 =>
      if changed.getLsbD cmdMemen then
        some (if new.getLsbD cmdMemen then .register idx bar else .unregister idx bar)
      else .none

def pciEmulCmdChanged (old : BitVec 16) : List Action :=
  (List.range (pciBarmax + 1)).filterMap (fun i => barChanged (old ^^^ d.command) d.command i (d.bar i))
    ++ [.lintrUpdate]

def pciEmulCmdstsWrite (coff : Nat) (new : BitVec 32) (bytes : Nat) : Devinst × List Action :=
  let readonly := (0xfffff880 : BitVec 32) >>> (coff % 4 * 8)
  let written := replace (cfgread d.cfgdata coff bytes) new (~~~readonly)
  let changed := { d with cfgdata := cfgwrite d.cfgdata coff written bytes }
  (changed, pciEmulCmdChanged changed d.command)

def roundup4 (n : Nat) : Nat := (n + 3) / 4 * 4

def storeBytes (cfg : Mem) (a : Nat) : List (BitVec 8) → Mem
  | [] => cfg
  | b :: rest => storeBytes (write8 cfg a b) (a + 1) rest

def pciEmulAddCapability (capdata : List (BitVec 8)) : Option Devinst :=
  let present := d.status.getLsbD statusCappresent
  let reallen := roundup4 capdata.length
  let capoff := if present then d.capend + 1 else capStartOffset
  if capoff + reallen > pciRegmax + 1 then none
  else
    let cfg :=
      if present then write8 d.cfgdata (d.prevcap + 1) (BitVec.ofNat 8 capoff)
      else write16 (write8 d.cfgdata pcirCapPtr (BitVec.ofNat 8 capoff)) pcirStatus
        (d.status ||| BitVec.twoPow 16 statusCappresent)
    some { d with
      cfgdata := write8 (storeBytes cfg capoff capdata) (capoff + 1) 0
      prevcap := capoff
      capend := capoff + reallen - 1 }

def msixcapCfgwrite (capoff offset bytes : Nat) (val : BitVec 32) : Devinst × List Action :=
  if offset - capoff = 2 ∧ bytes = 2 then
    let msgctrl := replace (read16 d.cfgdata offset) (val.setWidth 16)
      (msixctrlEnable ||| msixctrlFunctionMask)
    ({ d with
        msix := ⟨decide (msgctrl &&& msixctrlEnable ≠ 0),
          decide (msgctrl &&& msixctrlFunctionMask ≠ 0)⟩
        cfgdata := cfgwrite d.cfgdata offset (msgctrl.setWidth 32) bytes }, [.lintrUpdate])
  else ({ d with cfgdata := cfgwrite d.cfgdata offset val bytes }, [])

def msiState (capoff : Nat) (old : Msi) : Msi :=
  let msgctrl := read16 cfg (capoff + 2)
  let addrlo := read32 cfg (capoff + 4)
  let msgdata := if msgctrl &&& msictrl64bit ≠ 0 then read16 cfg (capoff + 12)
    else read16 cfg (capoff + 8)
  let mme := msgctrl &&& msictrlMmeMask
  if msgctrl &&& msictrlEnable ≠ 0 then
    ⟨true, addrlo.setWidth 64, msgdata.setWidth 64, 1 <<< (mme >>> 4).toNat⟩
  else { old with enabled := false, maxmsgnum := 0 }

def msicapCfgwrite (capoff offset bytes : Nat) (val : BitVec 32) : Devinst × List Action :=
  let val := if offset - capoff = 2 ∧ bytes = 2 then
      (replace (read16 d.cfgdata offset) (val.setWidth 16)
        (msictrlMmeMask ||| msictrlEnable)).setWidth 32
    else val
  let cfg := cfgwrite d.cfgdata offset val bytes
  ({ d with cfgdata := cfg, msi := msiState cfg capoff d.msi }, [.lintrUpdate])

def pciecapCfgwrite (_capoff offset bytes : Nat) (val : BitVec 32) : Devinst × List Action :=
  ({ d with cfgdata := cfgwrite d.cfgdata offset val bytes }, [])

def capSearch (cfg : Mem) (offset : Nat) : Nat → Nat → Option Nat
  | 0, _ => none
  | turns + 1, capoff =>
      let nextoff := (cfg (capoff + 1)).toNat
      if nextoff = 0 then some capoff
      else if capoff ≤ offset ∧ offset < nextoff then some capoff
      else capSearch cfg offset turns nextoff

/-- A search that comes to a place again goes round for ever, and there are 256 places. -/
def capTurns : Nat := 256

def capWriteAt (capoff offset bytes : Nat) (val : BitVec 32) : Devinst × List Action :=
  let capid := d.cfgdata capoff
  if capid = pciyMsi then msicapCfgwrite d capoff offset bytes val
  else if capid = pciyMsix then msixcapCfgwrite d capoff offset bytes val
  else if capid = pciyExpress then pciecapCfgwrite d capoff offset bytes val
  else (d, [])

def pciEmulCapwrite (offset bytes : Nat) (val : BitVec 32) : Option (Devinst × List Action) :=
  match capSearch d.cfgdata offset capTurns capStartOffset with
  | none => none
  | some capoff =>
      if offset < capoff then none
      else if offset = capoff ∨ offset = capoff + 1 then
        if offset = capoff ∧ bytes = 4 then
          some (capWriteAt d capoff (offset + 2) 2 (val >>> 16))
        else some (d, [])
      else some (capWriteAt d capoff offset bytes val)

def pciEmulIscap (offset : Nat) : Bool :=
  d.status.getLsbD statusCappresent && decide (capStartOffset ≤ offset ∧ offset ≤ d.capend)

/-- The part of pci_cfgrw that writes, for a device without a pe_cfgwrite of its own. -/
def pciCfgwrite (coff bytes : Nat) (eax : BitVec 32) : Option (Devinst × List Action) :=
  if (bytes ≠ 1 ∧ bytes ≠ 2 ∧ bytes ≠ 4) ∨ coff % bytes ≠ 0 ∨ pciRegmax + 1 ≤ coff then some (d, [])
  else if pcirBar 0 ≤ coff ∧ coff < pcirBar (pciBarmax + 1) then
    if bytes ≠ 4 then some (d, []) else some (barWrite d ((coff - pcirBar 0) / 4) eax)
  else if pciEmulIscap d coff then pciEmulCapwrite d coff bytes eax
  else if pcirCommand ≤ coff ∧ coff < pcirRevid then some (pciEmulCmdstsWrite d coff eax bytes)
  else some ({ d with cfgdata := cfgwrite d.cfgdata coff eax bytes }, [])

/-- A device as pci_emul_init hands it to its own init function, with what that function puts into
    the header beside the registers that are modelled. -/
def Devinst.fresh (header : Mem) : Devinst where
  cfgdata := fun x =>
    if x = pcirCommand then 0x04
    else if pcirCommand ≤ x ∧ x < pcirRevid ∨ pcirBar 0 ≤ x ∧ x < pcirBar (pciBarmax + 1) ∨
      capStartOffset ≤ x then 0
    else header x
  prevcap := 0
  capend := 0
  msi := ⟨false, 0, 0, 0⟩
  msix := ⟨false, false⟩
  bar := fun _ => ⟨.none, 0, 0⟩

section
variable {d d' : Devinst} {coff bytes x : Nat}

theorem bar_write_shape (d : Devinst) (idx : Nat) (eax : BitVec 32) : ∃ bar value actions,
    barWrite d idx eax = ({ d with
      cfgdata := write32 d.cfgdata (pcirBar idx) value
      bar := bar }, actions) := by
  unfold barWrite updateBarAddress
  cases kind : (d.bar idx).type with
  | none =>
    simp only [kind]
    exact ⟨_, _, _, rfl⟩
  | io | mem32 | mem64 | memhi64 =>
    simp only [kind]
    split <;> exact ⟨_, _, _, rfl⟩

theorem cmdsts_other {coff bytes x : Nat} (new : BitVec 32)
    (width : bytes = 1 ∨ bytes = 2 ∨ bytes = 4) (aligned : coff % bytes = 0)
    (place : pcirCommand ≤ coff ∧ coff < pcirRevid) (apart : x < pcirCommand ∨ pcirStatus ≤ x) :
    (pciEmulCmdstsWrite d coff new bytes).1.cfgdata x = d.cfgdata x := by
  unfold pcirCommand pcirRevid pcirStatus at *
  show cfgwrite d.cfgdata coff _ bytes x = d.cfgdata x
  by_cases hit : coff ≤ x ∧ x < coff + bytes
  · obtain ⟨i, rfl⟩ := Nat.exists_eq_add_of_le hit.1
    have inside : i < bytes := by omega
    rw [cfgwrite_at _ _ width inside, ← cfgread_byte d.cfgdata width inside]
    have place : coff % 4 + i = 2 ∨ coff % 4 + i = 3 := by
      rcases width with rfl | rfl | rfl <;> omega
    apply eq_of_getLsbD_eq
    intro j bound
    have readonly : ∀ n < 32, 16 ≤ n → (0xfffff880 : BitVec 32).getLsbD n = true := by decide
    rw [getLsbD_extractLsb', getLsbD_extractLsb', get_replace, getLsbD_not,
      getLsbD_ushiftRight, readonly _ (by omega) (by omega)]
    simp
  · exact cfgwrite_other _ _ width (by omega)

structure CapShape (d d' : Devinst) (actions : List Action) : Prop where
  header : ∀ x < capStartOffset, d'.cfgdata x = d.cfgdata x
  bar : d'.bar = d.bar
  calls : actions = [] ∨ actions = [.lintrUpdate]
  quiet : actions = [] → d'.msi = d.msi ∧ d'.msix = d.msix

theorem cap_write_shape (d : Devinst) (capoff offset bytes : Nat) (val : BitVec 32)
    (width : bytes = 1 ∨ bytes = 2 ∨ bytes = 4) (place : capStartOffset ≤ offset) :
    CapShape d (capWriteAt d capoff offset bytes val).1 (capWriteAt d capoff offset bytes val).2 := by
  have header : ∀ v, ∀ x < capStartOffset, cfgwrite d.cfgdata offset v bytes x = d.cfgdata x := by
    intro v x below
    exact cfgwrite_other _ _ width (.inl (Nat.lt_of_lt_of_le below place))
  unfold capWriteAt
  simp only
  split
  · exact ⟨header _, rfl, .inr rfl, nofun⟩
  · split
    · unfold msixcapCfgwrite
      split
      · exact ⟨header _, rfl, .inr rfl, nofun⟩
      · exact ⟨header _, rfl, .inl rfl, fun _ => ⟨rfl, rfl⟩⟩
    · split
      · exact ⟨header _, rfl, .inl rfl, fun _ => ⟨rfl, rfl⟩⟩
      · exact ⟨fun _ _ => rfl, rfl, .inl rfl, fun _ => ⟨rfl, rfl⟩⟩

theorem capwrite_shape {actions : List Action} {val : BitVec 32}
    (width : bytes = 1 ∨ bytes = 2 ∨ bytes = 4) (cap : pciEmulIscap d coff = true)
    (written : pciEmulCapwrite d coff bytes val = some (d', actions)) : CapShape d d' actions := by
  unfold pciEmulIscap at cap
  rw [Bool.and_eq_true, decide_eq_true_iff] at cap
  obtain ⟨-, place, -⟩ := cap
  unfold pciEmulCapwrite at written
  split at written
  · cases written
  rename_i capoff _
  split at written
  · cases written
  split at written
  · split at written
    · have shape := cap_write_shape d capoff (coff + 2) 2 (val >>> 16) (by simp) (by omega)
      rw [Option.some.inj written] at shape
      exact shape
    · cases written
      exact ⟨fun _ _ => rfl, rfl, .inl rfl, fun _ => ⟨rfl, rfl⟩⟩
  · have shape := cap_write_shape d capoff coff bytes val width place
    rw [Option.some.inj written] at shape
    exact shape

end
end Pci
