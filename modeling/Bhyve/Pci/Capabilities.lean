import Mathlib.Data.List.Pairwise
import Bhyve.Lib.StepRuns
import Bhyve.Pci.Config

namespace Pci
open ByteMemory MaskedWrites StepRuns BitVec
open List hiding Mem

/-- A capability that was added: its place, its identifier, and what its message control (or what
    is in its place) was then. -/
structure Slot where
  off : Nat
  size : Nat
  id : BitVec 8
  ctrl : BitVec 16

def Linked (cfg : Mem) : List Slot → Prop
  | [] => True
  | [s] => cfg s.off = s.id ∧ cfg (s.off + 1) = 0
  | s :: t :: rest =>
      cfg s.off = s.id ∧ cfg (s.off + 1) = BitVec.ofNat 8 t.off ∧ Linked cfg (t :: rest)

structure Config where
  d : Devinst
  slots : List Slot

inductive Fault where
  | emptyCapability
  | search
deriving DecidableEq

inductive Step where
  | add (capdata : List (BitVec 8))
  | write (coff bytes : Nat) (val : BitVec 32)

def added (d : Devinst) (capdata : List (BitVec 8)) : Slot where
  off := d.prevcap
  size := roundup4 capdata.length
  id := capdata.headD 0
  ctrl := read16 d.cfgdata (d.prevcap + 2)

def step (c : Config) : Step → Except Fault Config
  | .add capdata =>
      if capdata = [] then .error .emptyCapability
      else
        match pciEmulAddCapability c.d capdata with
        | none => .ok c
        | some d => .ok ⟨d, c.slots ++ [added d capdata]⟩
  | .write coff bytes val =>
      match pciCfgwrite c.d coff bytes val with
      | none => .error .search
      | some (d, _) => .ok ⟨d, c.slots⟩

def msiAddr (cfg : Mem) (off : Nat) : BitVec 64 :=
  if read16 cfg (off + 2) &&& msictrl64bit ≠ 0 then read32 cfg (off + 8) ++ read32 cfg (off + 4)
  else (read32 cfg (off + 4)).setWidth 64

def msiData (cfg : Mem) (off : Nat) : BitVec 64 :=
  (if read16 cfg (off + 2) &&& msictrl64bit ≠ 0 then read16 cfg (off + 12)
    else read16 cfg (off + 8)).setWidth 64

def msiMessages (cfg : Mem) (off : Nat) : Nat :=
  2 ^ ((read16 cfg (off + 2)).extractLsb' 4 3).toNat

structure MsiAgrees (d : Devinst) (s : Slot) : Prop where
  fixed : read16 d.cfgdata (s.off + 2) &&& (msictrl64bit ||| msictrlMmcMask) =
    s.ctrl &&& (msictrl64bit ||| msictrlMmcMask)
  enabled : d.msi.enabled = decide (read16 d.cfgdata (s.off + 2) &&& msictrlEnable ≠ 0)
  values : d.msi.enabled = true → d.msi.addr = msiAddr d.cfgdata s.off ∧
    d.msi.msgData = msiData d.cfgdata s.off ∧ d.msi.maxmsgnum = msiMessages d.cfgdata s.off

structure MsixAgrees (d : Devinst) (s : Slot) : Prop where
  fixed : read16 d.cfgdata (s.off + 2) &&& msixctrlTableSize = s.ctrl &&& msixctrlTableSize
  enabled : d.msix.enabled = decide (read16 d.cfgdata (s.off + 2) &&& msixctrlEnable ≠ 0)
  masked : d.msix.functionMask =
    decide (read16 d.cfgdata (s.off + 2) &&& msixctrlFunctionMask ≠ 0)

structure Coherent (c : Config) : Prop where
  chain : Linked c.d.cfgdata c.slots
  found : ∀ offset, pciEmulIscap c.d offset = true → ∃ s ∈ c.slots,
    capSearch c.d.cfgdata offset capTurns capStartOffset = some s.off ∧
      s.off ≤ offset ∧ offset < s.off + s.size
  msi : ∀ s ∈ c.slots, s.id = pciyMsi → MsiAgrees c.d s
  msix : ∀ s ∈ c.slots, s.id = pciyMsix → MsixAgrees c.d s

/-- The bytes of an access as the code goes on with them: behind a head that is written as a dword
    there is the word of its upper half. -/
def Slot.access (s : Slot) (coff bytes : Nat) (val : BitVec 32) : Nat × Nat × BitVec 32 :=
  if coff = s.off ∧ bytes = 4 then (s.off + 2, 2, val >>> 16) else (coff, bytes, val)

def Zeros (bytes : Nat) (val : BitVec 32) : Prop :=
  ∀ i < bytes, val.extractLsb' (8 * i) 8 = 0

/-- A byte that is written over the message control of MSI leaves its fixed fields, and the upper
    half of the address is zero while MSI is on. -/
structure MsiKept (cfg : Mem) (s : Slot) (coff bytes : Nat) (val : BitVec 32) : Prop where
  control : bytes = 1 → coff = s.off + 2 → val.setWidth 8 &&& 0x8e = cfg coff &&& 0x8e
  turnedOn : s.ctrl &&& msictrl64bit ≠ 0 → coff = s.off + 2 → val.getLsbD 0 = true →
    read32 cfg (s.off + 8) = 0
  high : s.ctrl &&& msictrl64bit ≠ 0 → s.off + 8 ≤ coff → coff < s.off + 12 →
    read16 cfg (s.off + 2) &&& msictrlEnable ≠ 0 → Zeros bytes val

/-- A byte that is written over the message control of MSI-X changes none of its bits that have a
    meaning. -/
structure MsixKept (cfg : Mem) (s : Slot) (coff bytes : Nat) (val : BitVec 32) : Prop where
  low : bytes = 1 → coff = s.off + 2 → val.setWidth 8 = cfg coff
  high : bytes = 1 → coff = s.off + 3 → val.setWidth 8 &&& 0xc7 = cfg coff &&& 0xc7

def Kept (d : Devinst) (coff bytes : Nat) (val : BitVec 32) (s : Slot) : Prop :=
  let access := s.access coff bytes val
  (s.id = pciyMsi → MsiKept d.cfgdata s access.1 access.2.1 access.2.2) ∧
    (s.id = pciyMsix → MsixKept d.cfgdata s access.1 access.2.1 access.2.2)

def HasRoom (d : Devinst) (capdata : List (BitVec 8)) : Prop :=
  (if d.status.getLsbD statusCappresent then d.capend + 1 else capStartOffset) +
    roundup4 capdata.length ≤ pciRegmax + 1

/-- A capability that can be added beside others: the only one of MSI or MSI-X, turned off, and as
    long as its registers need. -/
structure Addable (slots : List Slot) (capdata : List (BitVec 8)) : Prop where
  only : capdata.headD 0 = pciyMsi ∨ capdata.headD 0 = pciyMsix →
    ∀ s ∈ slots, s.id ≠ capdata.headD 0
  msi : capdata.headD 0 = pciyMsi → capdata.getD 2 0 &&& 0x01 = 0 ∧ 8 < capdata.length ∧
    (capdata.getD 2 0 &&& 0x80 ≠ 0 → 12 < capdata.length)
  msix : capdata.headD 0 = pciyMsix → capdata.getD 3 0 &&& 0xc0 = 0 ∧ 3 < capdata.length

def Harmless (c : Config) : Step → Prop
  | .add capdata => capdata ≠ [] ∧ (HasRoom c.d capdata → Addable c.slots capdata)
  | .write coff bytes val => ∀ s ∈ c.slots, Kept c.d coff bytes val s

instance (cfg : Mem) (s : Slot) (coff bytes : Nat) (val : BitVec 32) :
    Decidable (MsiKept cfg s coff bytes val) :=
  decidable_of_iff (_ ∧ _ ∧ (_ → _ → _ → _ → ∀ i < bytes, val.extractLsb' (8 * i) 8 = 0))
    ⟨fun ⟨a, b, c⟩ => ⟨a, b, c⟩, fun ⟨a, b, c⟩ => ⟨a, b, c⟩⟩

instance (cfg : Mem) (s : Slot) (coff bytes : Nat) (val : BitVec 32) :
    Decidable (MsixKept cfg s coff bytes val) :=
  decidable_of_iff (_ ∧ _)
    ⟨fun ⟨a, b⟩ => ⟨a, b⟩, fun ⟨a, b⟩ => ⟨a, b⟩⟩

instance (d : Devinst) (coff bytes : Nat) (val : BitVec 32) (s : Slot) :
    Decidable (Kept d coff bytes val s) :=
  inferInstanceAs (Decidable ((_ → _) ∧ (_ → _)))

instance (d : Devinst) (capdata : List (BitVec 8)) : Decidable (HasRoom d capdata) :=
  inferInstanceAs (Decidable (_ ≤ _))

instance (slots : List Slot) (capdata : List (BitVec 8)) : Decidable (Addable slots capdata) :=
  decidable_of_iff (_ ∧ _ ∧ _)
    ⟨fun ⟨a, b, c⟩ => ⟨a, b, c⟩, fun ⟨a, b, c⟩ => ⟨a, b, c⟩⟩

instance (c : Config) : (e : Step) → Decidable (Harmless c e)
  | .add capdata => inferInstanceAs (Decidable (capdata ≠ [] ∧ (_ → _)))
  | .write _ _ _ => inferInstanceAs (Decidable (∀ s ∈ c.slots, _))

section
variable {cfg cfg' : Mem} {s : Slot} {slots : List Slot} {stop offset : Nat}

def Laid : Nat → List Slot → Nat → Prop
  | start, [], stop => start = stop
  | start, s :: rest, stop =>
      s.off = start ∧ 0 < s.size ∧ s.size % 4 = 0 ∧ Laid (start + s.size) rest stop

theorem laid_le : ∀ {start}, Laid start slots stop → start + slots.length ≤ stop := by
  induction slots with
  | nil =>
    intro start laid
    exact Nat.le_of_eq laid
  | cons s rest ih =>
    intro start laid
    have later := ih laid.2.2.2
    have positive := laid.2.1
    rw [length_cons]
    omega

theorem laid_mem : ∀ {start}, Laid start slots stop → start % 4 = 0 → ∀ s ∈ slots,
    start ≤ s.off ∧ s.off + s.size ≤ stop ∧ s.off % 4 = 0 ∧ s.size % 4 = 0 ∧ 0 < s.size := by
  induction slots with
  | nil =>
    intro start laid whole s member
    cases member
  | cons t rest ih =>
    intro start laid whole s member
    obtain ⟨rfl, positive, size, later⟩ := laid
    rcases List.mem_cons.mp member with rfl | member
    · have := laid_le later
      omega
    · have := ih later (by omega) s member
      omega

def Slot.Apart (s t : Slot) : Prop := s.off + s.size ≤ t.off ∨ t.off + t.size ≤ s.off

theorem laid_apart : ∀ {start}, Laid start slots stop → start % 4 = 0 →
    slots.Pairwise Slot.Apart := by
  induction slots with
  | nil =>
    intro start laid whole
    exact List.Pairwise.nil
  | cons s rest ih =>
    intro start laid whole
    obtain ⟨rfl, positive, size, later⟩ := laid
    refine List.Pairwise.cons ?_ (ih later (by omega))
    intro t member
    exact .inl (laid_mem later (by omega) t member).1

theorem laid_snoc : ∀ {start}, Laid start slots stop → 0 < s.size → s.size % 4 = 0 →
    s.off = stop → Laid start (slots ++ [s]) (stop + s.size) := by
  induction slots with
  | nil =>
    intro start laid positive size off
    obtain rfl : start = stop := laid
    exact ⟨off, positive, size, rfl⟩
  | cons t rest ih =>
    intro start laid positive size off
    exact ⟨laid.1, laid.2.1, laid.2.2.1, ih laid.2.2.2 positive size off⟩

theorem linked_congr (linked : Linked cfg slots)
    (same : ∀ s ∈ slots, cfg' s.off = cfg s.off ∧ cfg' (s.off + 1) = cfg (s.off + 1)) :
    Linked cfg' slots := by
  induction slots with
  | nil => trivial
  | cons s rest ih =>
    obtain ⟨id, next⟩ := same s mem_cons_self
    have later := fun t member => same t (mem_cons_of_mem s member)
    cases rest with
    | nil => exact ⟨id.trans linked.1, next.trans linked.2⟩
    | cons t rest => exact ⟨id.trans linked.1, next.trans linked.2.1, ih linked.2.2 later⟩

theorem linked_snoc (linked : Linked cfg slots) (id : cfg' s.off = s.id)
    (last : cfg' (s.off + 1) = 0) (ids : ∀ t ∈ slots, cfg' t.off = cfg t.off)
    (nexts : ∀ t ∈ slots.dropLast, cfg' (t.off + 1) = cfg (t.off + 1))
    (next : ∀ t ∈ slots.getLast?, cfg' (t.off + 1) = BitVec.ofNat 8 s.off) :
    Linked cfg' (slots ++ [s]) := by
  induction slots with
  | nil => exact ⟨id, last⟩
  | cons t rest ih =>
    have head := ids t mem_cons_self
    cases rest with
    | nil => exact ⟨head.trans linked.1, next t rfl, id, last⟩
    | cons u rest =>
      refine ⟨head.trans linked.1, ?_, ih linked.2.2 ?_ ?_ next⟩
      · rw [nexts t (by simp), linked.2.1]
      · exact fun x member => ids x (mem_cons_of_mem t member)
      · exact fun x member => nexts x (by
          exact mem_cons_of_mem t member)

theorem search_finds (turns : Nat) : ∀ {start slots}, slots ≠ [] → Linked cfg slots →
    Laid start slots stop → 0 < start → stop ≤ 256 → start ≤ offset → offset < stop →
    slots.length ≤ turns →
    ∃ s ∈ slots, capSearch cfg offset turns start = some s.off ∧ s.off ≤ offset ∧
      offset < s.off + s.size := by
  induction turns with
  | zero =>
    intro start slots some_slot _ _ _ _ _ _ short
    exact absurd (List.length_eq_zero_iff.mp (Nat.le_zero.mp short)) some_slot
  | succ turns ih =>
    intro start slots some_slot linked laid positive small from_start inside short
    unfold capSearch
    rcases slots with _ | ⟨s, _ | ⟨t, rest⟩⟩
    · exact absurd rfl some_slot
    · obtain ⟨rfl, -, -, end_⟩ := laid
      refine ⟨s, mem_cons_self, ?_, from_start, by rw [end_]; exact inside⟩
      simp [linked.2]
    · obtain ⟨rfl, size, -, later⟩ := laid
      have off : t.off = s.off + s.size := later.1
      have within := laid_le later
      rw [length_cons] at within
      have next : (cfg (s.off + 1)).toNat = t.off := by
        rw [linked.2.1, toNat_ofNat]
        omega
      rw [next, if_neg (by omega)]
      by_cases here : offset < t.off
      · refine ⟨s, mem_cons_self, ?_, from_start, by omega⟩
        simp [here, from_start]
      · rw [if_neg (by omega)]
        rw [← off] at later
        obtain ⟨u, member, found, covers⟩ := ih (cons_ne_nil t rest) linked.2.2 later
          (by omega) small (by omega) inside (by simpa using short)
        exact ⟨u, mem_cons_of_mem s member, found, covers⟩

end

section
variable {cfg cfg' : Mem} {d d' : Devinst} {s : Slot}

structure MsiHeld (d : Devinst) (s : Slot) : Prop extends MsiAgrees d s where
  clear : s.ctrl &&& msictrl64bit ≠ 0 → d.msi.enabled = true → read32 d.cfgdata (s.off + 8) = 0
  long : 12 ≤ s.size ∧ (s.ctrl &&& msictrl64bit ≠ 0 → 16 ≤ s.size)

structure Held (d : Devinst) (s : Slot) : Prop where
  msi : s.id = pciyMsi → MsiHeld d s
  msix : s.id = pciyMsix → MsixAgrees d s

theorem sub_mask {w : Nat} {x y m k : BitVec w} (same : x &&& m = y &&& m) (inside : m &&& k = k) :
    x &&& k = y &&& k := by
  rw [← inside, ← BitVec.and_assoc, ← BitVec.and_assoc, same]

theorem wide_address (x : BitVec 16) {y : BitVec 16}
    (fixed : x &&& (msictrl64bit ||| msictrlMmcMask) = y &&& (msictrl64bit ||| msictrlMmcMask)) :
    x &&& msictrl64bit = y &&& msictrl64bit :=
  sub_mask fixed (by decide)

theorem read32_zero_iff (cfg : Mem) (a : Nat) : read32 cfg a = 0 ↔ ∀ i < 4, cfg (a + i) = 0 := by
  have bytes := fun i (bound : i < 4) => @cfgread_byte cfg a 4 i (by simp) bound
  constructor
  · intro zero i bound
    rw [← bytes i bound]
    show (read32 cfg a).extractLsb' (8 * i) 8 = 0
    rw [zero]
    exact extractLsb'_zero
  · intro zeros
    rw [read32, read16, read16, zeros 2 (by decide), zeros 3 (by decide), zeros 1 (by decide),
      show cfg a = 0 from zeros 0 (by decide)]
    rfl

theorem held_congr (held : Held d s) (size : 4 ≤ s.size)
    (same : ∀ x, s.off + 2 ≤ x → x < s.off + s.size → d'.cfgdata x = d.cfgdata x)
    (msi : s.id = pciyMsi → d'.msi = d.msi) (msix : s.id = pciyMsix → d'.msix = d.msix) :
    Held d' s := by
  have control : read16 d'.cfgdata (s.off + 2) = read16 d.cfgdata (s.off + 2) :=
    read16_congr (same _ (by omega) (by omega)) (same _ (by omega) (by omega))
  constructor
  · intro kind
    obtain ⟨⟨fixed, enabled, values⟩, clear, long⟩ := held.msi kind
    have wide := wide_address _ fixed
    have low : read32 d'.cfgdata (s.off + 4) = read32 d.cfgdata (s.off + 4) :=
      read32_congr fun i bound => same _ (by omega) (by omega)
    have same_addr : msiAddr d'.cfgdata s.off = msiAddr d.cfgdata s.off := by
      unfold msiAddr
      rw [control, low, wide]
      split
      · rename_i is_wide
        rw [read32_congr fun i bound => same (s.off + 8 + i) (by omega) (by omega)]
      · rfl
    have same_data : msiData d'.cfgdata s.off = msiData d.cfgdata s.off := by
      unfold msiData
      rw [control, wide]
      split
      · rename_i is_wide
        have size := long.2 is_wide
        rw [read16_congr (same (s.off + 12) (by omega) (by omega)) (same _ (by omega) (by omega))]
      · rw [read16_congr (same (s.off + 8) (by omega) (by omega)) (same _ (by omega) (by omega))]
    have same_messages : msiMessages d'.cfgdata s.off = msiMessages d.cfgdata s.off := by
      unfold msiMessages
      rw [control]
    refine ⟨⟨control ▸ fixed, ?_, ?_⟩, ?_, long⟩
    · rw [msi kind, control, enabled]
    · rw [msi kind, same_addr, same_data, same_messages]
      exact values
    · intro is_wide on
      rw [msi kind] at on
      rw [read32_congr fun i bound => same (s.off + 8 + i) (by omega) (by omega)]
      exact clear is_wide on
  · intro kind
    obtain ⟨fixed, enabled, masked⟩ := held.msix kind
    exact ⟨control ▸ fixed, by rw [msix kind, control, enabled], by rw [msix kind, control, masked]⟩

theorem messages_eq (ctrl : BitVec 16) :
    1 <<< ((ctrl &&& msictrlMmeMask) >>> 4).toNat = 2 ^ (ctrl.extractLsb' 4 3).toNat := by
  have field : (ctrl &&& msictrlMmeMask) >>> 4 = (ctrl.extractLsb' 4 3).setWidth 16 := by
    apply eq_of_getLsbD_eq
    intro i bound
    have mask : msictrlMmeMask.getLsbD (4 + i) = decide (i < 3) := by
      revert i
      decide
    rw [getLsbD_ushiftRight, getLsbD_and, mask, getLsbD_setWidth,
      getLsbD_extractLsb', decide_eq_true bound, Bool.true_and, Bool.and_comm]
  rw [field, toNat_setWidth, Nat.one_shiftLeft, Nat.mod_eq_of_lt]
  exact Nat.lt_trans (BitVec.isLt _) (by decide)

theorem msi_state_agrees (old : Msi) (off : Nat) :
    (msiState cfg off old).enabled = decide (read16 cfg (off + 2) &&& msictrlEnable ≠ 0) ∧
      ((msiState cfg off old).enabled = true →
        (read16 cfg (off + 2) &&& msictrl64bit ≠ 0 → read32 cfg (off + 8) = 0) →
        (msiState cfg off old).addr = msiAddr cfg off ∧
          (msiState cfg off old).msgData = msiData cfg off ∧
          (msiState cfg off old).maxmsgnum = msiMessages cfg off) := by
  unfold msiState
  by_cases on : read16 cfg (off + 2) &&& msictrlEnable ≠ 0
  · simp only [if_pos on, decide_eq_true on, true_and]
    intro _ clear
    refine ⟨?_, rfl, messages_eq _⟩
    unfold msiAddr
    split
    · rename_i wide
      rw [clear wide]
      exact (setWidth_eq_append (by decide)).trans rfl
    · rfl
  · simp only [if_neg on, decide_eq_false on, true_and]
    intro never
    cases never

theorem control_low (cfg : Mem) (a : Nat) (val : BitVec 32) :
    read16 (cfgwrite cfg a val 1) a = cfg (a + 1) ++ val.setWidth 8 := by
  show (write8 cfg a (val.setWidth 8) (a + 1) ++ write8 cfg a (val.setWidth 8) a : BitVec 16) = _
  rw [write8_same, write8_other _ _ (by omega)]

theorem control_high (cfg : Mem) (a : Nat) (val : BitVec 32) :
    read16 (cfgwrite cfg (a + 1) val 1) a = val.setWidth 8 ++ cfg a := by
  show (write8 cfg (a + 1) (val.setWidth 8) (a + 1) ++
    write8 cfg (a + 1) (val.setWidth 8) a : BitVec 16) = _
  rw [write8_same, write8_other _ _ (by omega)]

structure Within (s : Slot) (offset bytes : Nat) : Prop where
  width : bytes = 1 ∨ bytes = 2 ∨ bytes = 4
  aligned : offset % bytes = 0
  base : s.off % 4 = 0
  behind : s.off + 2 ≤ offset
  inside : offset + bytes ≤ s.off + s.size

variable {offset bytes : Nat} {val : BitVec 32}

theorem within_cases (within : Within s offset bytes) :
    (offset = s.off + 2 ∧ bytes = 2) ∨ (offset = s.off + 2 ∧ bytes = 1) ∨
      (offset = s.off + 3 ∧ bytes = 1) ∨ s.off + 4 ≤ offset := by
  obtain ⟨width, aligned, base, behind, -⟩ := within
  rcases width with rfl | rfl | rfl <;> omega

theorem bit_of_flag (x : BitVec 16) (i : Nat) (bound : i < 16) :
    x &&& BitVec.twoPow 16 i ≠ 0 ↔ x.getLsbD i = true := by
  rw [and_twoPow]
  cases x.getLsbD i with
  | false => simp
  | true =>
    simp only [if_true, iff_true]
    intro zero
    have bit := congrArg (fun y => y.getLsbD i) zero
    simp [bound] at bit

theorem enable_bit (x : BitVec 16) : x &&& msictrlEnable ≠ 0 ↔ x.getLsbD 0 = true :=
  bit_of_flag x 0 (by decide)

theorem field_of_bytes {x y x' y' p q : BitVec 8} (high : x &&& p = x' &&& p)
    (low : y &&& q = y' &&& q) :
    (x ++ y : BitVec 16) &&& (p ++ q : BitVec 16) = (x' ++ y' : BitVec 16) &&& (p ++ q : BitVec 16) := by
  rw [and_append, and_append, high, low]

theorem word_of_write (cfg : Mem) (a : Nat) (v : BitVec 16) :
    read16 (cfgwrite cfg a (v.setWidth 32) 2) a = v := by
  show read16 (write16 cfg a ((v.setWidth 32).setWidth 16)) a = v
  simp

theorem high_zero {a : Nat} (width : bytes = 1 ∨ bytes = 2 ∨ bytes = 4) (zero : read32 cfg a = 0)
    (zeros : a < offset + bytes → offset < a + 4 → Zeros bytes val) :
    read32 (cfgwrite cfg offset val bytes) a = 0 := by
  rw [read32_zero_iff] at zero ⊢
  intro i bound
  by_cases hit : offset ≤ a + i ∧ a + i < offset + bytes
  · have value := zeros (by omega) (by omega) (a + i - offset) (by omega)
    have place : a + i = offset + (a + i - offset) := by omega
    rw [place, cfgwrite_at cfg val width (by omega), value]
  · rw [cfgwrite_other cfg val width (by omega)]
    exact zero i bound

theorem msi_held_of (old : Msi) (state : d.msi = msiState d.cfgdata s.off old)
    (fixed : read16 d.cfgdata (s.off + 2) &&& (msictrl64bit ||| msictrlMmcMask) =
      s.ctrl &&& (msictrl64bit ||| msictrlMmcMask))
    (clear : s.ctrl &&& msictrl64bit ≠ 0 → read16 d.cfgdata (s.off + 2) &&& msictrlEnable ≠ 0 →
      read32 d.cfgdata (s.off + 8) = 0)
    (long : 12 ≤ s.size ∧ (s.ctrl &&& msictrl64bit ≠ 0 → 16 ≤ s.size)) : MsiHeld d s := by
  obtain ⟨enabled, values⟩ := @msi_state_agrees d.cfgdata old s.off
  rw [← state] at enabled values
  have on : d.msi.enabled = true → read16 d.cfgdata (s.off + 2) &&& msictrlEnable ≠ 0 := by
    intro on
    rw [enabled] at on
    exact of_decide_eq_true on
  refine ⟨⟨fixed, enabled, fun set => values set fun wide => ?_⟩, fun wide set => clear wide (on set), long⟩
  rw [wide_address _ fixed] at wide
  exact clear wide (on set)

theorem msi_write_held (held : MsiHeld d s) (within : Within s offset bytes)
    (kept : MsiKept d.cfgdata s offset bytes val) :
    MsiHeld (msicapCfgwrite d s.off offset bytes val).1 s := by
  obtain ⟨⟨fixed, enabled, -⟩, clear, long⟩ := held
  have enabled_iff : d.msi.enabled = true ↔
      read16 d.cfgdata (s.off + 2) &&& msictrlEnable ≠ 0 := by
    rw [enabled]
    exact decide_eq_true_iff
  refine msi_held_of d.msi rfl ?_ ?_ long
  all_goals
    unfold msicapCfgwrite
    simp only
  · rcases within_cases within with ⟨rfl, rfl⟩ | ⟨rfl, rfl⟩ | ⟨rfl, rfl⟩ | behind
    · rw [if_pos ⟨by omega, rfl⟩, word_of_write, replace_keeps (by decide), fixed]
    · rw [if_neg (by omega), control_low, ← fixed]
      exact field_of_bytes (p := 0) rfl (kept.control rfl rfl)
    · rw [if_neg (by omega), control_high, ← fixed]
      exact field_of_bytes (p := 0) (q := 0x8e) (BitVec.and_zero.trans BitVec.and_zero.symm) rfl
    · rw [if_neg (by omega), read16_congr (cfgwrite_other _ _ within.width (by omega))
        (cfgwrite_other _ _ within.width (by omega)), fixed]
  · intro wide on
    rcases within_cases within with ⟨rfl, rfl⟩ | ⟨rfl, rfl⟩ | ⟨rfl, rfl⟩ | behind
    · rw [if_pos ⟨by omega, rfl⟩, word_of_write, enable_bit, get_replace,
        if_pos (by decide)] at on
      refine high_zero within.width (kept.turnedOn wide rfl ?_) (by omega)
      simpa using on
    · rw [if_neg (by omega), control_low, enable_bit, getLsbD_append,
        if_pos (by decide)] at on
      refine high_zero within.width (kept.turnedOn wide rfl ?_) (by omega)
      simpa using on
    · rw [if_neg (by omega), control_high, enable_bit, getLsbD_append,
        if_pos (by decide)] at on
      refine high_zero within.width (clear wide (enabled_iff.mpr ((enable_bit _).mpr ?_))) (by omega)
      rw [read16, getLsbD_append, if_pos (by decide), on]
    · rw [if_neg (by omega), read16_congr (cfgwrite_other _ _ within.width (by omega))
        (cfgwrite_other _ _ within.width (by omega))] at on
      rw [if_neg (by omega)]
      refine high_zero within.width (clear wide (enabled_iff.mpr on)) fun below above => ?_
      refine kept.high wide ?_ (by omega) on
      obtain ⟨width, aligned, base, -, -⟩ := within
      rcases width with rfl | rfl | rfl <;> omega

theorem msix_write_held (held : MsixAgrees d s) (within : Within s offset bytes)
    (kept : MsixKept d.cfgdata s offset bytes val) :
    MsixAgrees (msixcapCfgwrite d s.off offset bytes val).1 s := by
  obtain ⟨fixed, enabled, masked⟩ := held
  unfold msixcapCfgwrite
  rcases within_cases within with ⟨rfl, rfl⟩ | ⟨rfl, rfl⟩ | ⟨rfl, rfl⟩ | behind
  · rw [if_pos ⟨by omega, rfl⟩]
    refine ⟨?_, ?_, ?_⟩
    all_goals
      simp only
      rw [word_of_write]
    rw [replace_keeps (by decide), fixed]
  · rw [if_neg (by omega)]
    have same : read16 (cfgwrite d.cfgdata (s.off + 2) val 1) (s.off + 2) =
        read16 d.cfgdata (s.off + 2) := by
      rw [control_low, kept.low rfl rfl]
      rfl
    exact ⟨by rw [same, fixed], by rw [same, enabled], by rw [same, masked]⟩
  · rw [if_neg (by omega)]
    have byte := kept.high rfl rfl
    have same : ∀ p q : BitVec 8, 0xc7 &&& p = p →
        read16 d.cfgdata (s.off + 2) &&& (p ++ q : BitVec 16) =
          read16 (cfgwrite d.cfgdata (s.off + 3) val 1) (s.off + 2) &&& (p ++ q : BitVec 16) := by
      intro p q inside
      rw [control_high]
      exact field_of_bytes (sub_mask byte.symm inside) rfl
    have table := same 0x07 0xff (by decide)
    have on := same 0x80 0x00 (by decide)
    have mask := same 0x40 0x00 (by decide)
    exact ⟨table.symm.trans fixed, enabled.trans (congrArg (fun x => decide (x ≠ 0)) on),
      masked.trans (congrArg (fun x => decide (x ≠ 0)) mask)⟩
  · rw [if_neg (by omega)]
    have same : read16 (cfgwrite d.cfgdata offset val bytes) (s.off + 2) =
        read16 d.cfgdata (s.off + 2) :=
      read16_congr (cfgwrite_other _ _ within.width (by omega))
        (cfgwrite_other _ _ within.width (by omega))
    exact ⟨by rw [same, fixed], by rw [same, enabled], by rw [same, masked]⟩

end

section
variable {c : Config} {d' : Devinst} {s t : Slot} {stop : Nat}

structure Inv (c : Config) (stop : Nat) : Prop where
  linked : Linked c.d.cfgdata c.slots
  laid : Laid capStartOffset c.slots stop
  small : stop ≤ 256
  present : c.d.status.getLsbD statusCappresent = decide (c.slots ≠ [])
  last : ∀ s ∈ c.slots.getLast?, c.d.prevcap = s.off ∧ c.d.capend + 1 = stop
  only : c.slots.Pairwise fun s t => s.id = pciyMsi ∨ s.id = pciyMsix → t.id ≠ s.id
  held : ∀ s ∈ c.slots, Held c.d s
  noMsi : (∀ s ∈ c.slots, s.id ≠ pciyMsi) → c.d.msi.enabled = false
  noMsix : (∀ s ∈ c.slots, s.id ≠ pciyMsix) →
    c.d.msix.enabled = false ∧ c.d.msix.functionMask = false

theorem inv_mem (inv : Inv c stop) (member : s ∈ c.slots) :
    capStartOffset ≤ s.off ∧ s.off + s.size ≤ stop ∧ s.off % 4 = 0 ∧ s.size % 4 = 0 ∧ 0 < s.size :=
  laid_mem inv.laid rfl s member

theorem slots_apart (inv : Inv c stop) (first : s ∈ c.slots) (second : t ∈ c.slots)
    (other : t ≠ s) : s.Apart t := by
  have symmetric : Std.Symm Slot.Apart := ⟨fun x y apart => apart.symm⟩
  exact (laid_apart inv.laid rfl).forall first second other.symm

theorem ids_apart (inv : Inv c stop) (first : s ∈ c.slots) (second : t ∈ c.slots)
    (kind : s.id = pciyMsi ∨ s.id = pciyMsix) (other : t ≠ s) : t.id ≠ s.id := by
  have apart := inv.only.imp (S := fun x y => x.id = y.id → x.id ≠ pciyMsi ∧ x.id ≠ pciyMsix)
    fun {x y} each same => by
      constructor
      · exact fun msi => each (.inl msi) same.symm
      · exact fun msix => each (.inr msix) same.symm
  have symmetric : Std.Symm fun x y : Slot =>
      x.id = y.id → x.id ≠ pciyMsi ∧ x.id ≠ pciyMsix := by
    refine ⟨fun x y each same => ?_⟩
    rw [same]
    exact each same.symm
  intro same
  have neither := apart.forall first second other.symm same.symm
  rcases kind with msi | msix
  · exact neither.1 msi
  · exact neither.2 msix

theorem linked_id (linked : Linked c.d.cfgdata slots) (member : s ∈ slots) :
    c.d.cfgdata s.off = s.id := by
  induction slots with
  | nil => cases member
  | cons u rest ih =>
    rcases List.mem_cons.mp member with rfl | member
    · cases rest with
      | nil => exact linked.1
      | cons t rest => exact linked.1
    · cases rest with
      | nil => cases member
      | cons t rest => exact ih linked.2.2 member

variable {offset : Nat}

theorem capability_found (inv : Inv c stop) (cap : pciEmulIscap c.d offset = true) :
    ∃ s ∈ c.slots, capSearch c.d.cfgdata offset capTurns capStartOffset = some s.off ∧
      s.off ≤ offset ∧ offset < s.off + s.size := by
  unfold pciEmulIscap at cap
  rw [inv.present, Bool.and_eq_true, decide_eq_true_iff, decide_eq_true_iff] at cap
  obtain ⟨some_slot, low, high⟩ := cap
  have last := getLast?_eq_some_getLast some_slot
  obtain ⟨-, end_⟩ := inv.last _ last
  have count := laid_le inv.laid
  have small := inv.small
  exact search_finds capTurns some_slot inv.linked inv.laid (by decide) small low (by omega)
    (by unfold capTurns; omega)

theorem coherent_of_inv (inv : Inv c stop) : Coherent c where
  chain := inv.linked
  found := fun _ => capability_found inv
  msi := fun s member kind => ((inv.held s member).msi kind).toMsiAgrees
  msix := fun s member kind => (inv.held s member).msix kind

theorem inv_beside (inv : Inv c stop)
    (same : ∀ x, capStartOffset ≤ x → x < stop → d'.cfgdata x = c.d.cfgdata x)
    (status : d'.status.getLsbD statusCappresent = c.d.status.getLsbD statusCappresent)
    (places : d'.prevcap = c.d.prevcap ∧ d'.capend = c.d.capend)
    (msi : d'.msi = c.d.msi) (msix : d'.msix = c.d.msix) : Inv ⟨d', c.slots⟩ stop := by
  have inside := @inv_mem c
  refine ⟨?_, inv.laid, inv.small, status.trans inv.present, ?_, inv.only, ?_, ?_, ?_⟩
  · refine linked_congr inv.linked fun s member => ?_
    obtain ⟨low, high, -, size, positive⟩ := inside inv member
    exact ⟨same _ low (by omega), same _ (by omega) (by omega)⟩
  · intro s member
    rw [places.1, places.2]
    exact inv.last s member
  · intro s member
    obtain ⟨low, high, -, size, positive⟩ := inside inv member
    refine held_congr (inv.held s member) (by omega) ?_ (fun _ => msi) fun _ => msix
    exact fun x above below => same x (by omega) (by omega)
  · intro none
    rw [msi]
    exact inv.noMsi none
  · intro none
    rw [msix]
    exact inv.noMsix none

theorem inv_inside (inv : Inv c stop) (member : s ∈ c.slots) {bytes : Nat}
    (within : Within s offset bytes)
    (same : ∀ x, x < offset ∨ offset + bytes ≤ x → d'.cfgdata x = c.d.cfgdata x)
    (places : d'.prevcap = c.d.prevcap ∧ d'.capend = c.d.capend) (held : Held d' s)
    (msi : s.id ≠ pciyMsi → d'.msi = c.d.msi) (msix : s.id ≠ pciyMsix → d'.msix = c.d.msix) :
    Inv ⟨d', c.slots⟩ stop := by
  obtain ⟨low, high, whole, size, positive⟩ := inv_mem inv member
  have behind := within.behind
  have before := within.inside
  have status : d'.status = c.d.status := by
    unfold capStartOffset at low
    exact read16_congr (same _ (.inl (by unfold pcirStatus; omega)))
      (same _ (.inl (by unfold pcirStatus; omega)))
  refine ⟨?_, inv.laid, inv.small, ?_, ?_, inv.only, ?_, ?_, ?_⟩
  · refine linked_congr inv.linked fun t there => ?_
    by_cases self : t = s
    · subst self
      exact ⟨same _ (.inl (by omega)), same _ (.inl (by omega))⟩
    · have apart := slots_apart inv member there self
      have := inv_mem inv there
      unfold Slot.Apart at apart
      exact ⟨same _ (by omega), same _ (by omega)⟩
  · rw [status]
    exact inv.present
  · intro t there
    rw [places.1, places.2]
    exact inv.last t there
  · intro t there
    by_cases self : t = s
    · rw [self]
      exact held
    · have apart := slots_apart inv member there self
      have := inv_mem inv there
      unfold Slot.Apart at apart
      refine held_congr (inv.held t there) (by omega) (fun x above below => same x (by omega)) ?_ ?_
      · intro kind
        refine msi fun also => ?_
        exact ids_apart inv member there (.inl also) self (kind.trans also.symm)
      · intro kind
        refine msix fun also => ?_
        exact ids_apart inv member there (.inr also) self (kind.trans also.symm)
  · intro none
    rw [msi (none s member)]
    exact inv.noMsi none
  · intro none
    rw [msix (none s member)]
    exact inv.noMsix none

theorem cap_write_inv (inv : Inv c stop) (member : s ∈ c.slots) {bytes : Nat} {val : BitVec 32}
    (within : Within s offset bytes) (msi : s.id = pciyMsi → MsiKept c.d.cfgdata s offset bytes val)
    (msix : s.id = pciyMsix → MsixKept c.d.cfgdata s offset bytes val) :
    Inv ⟨(capWriteAt c.d s.off offset bytes val).1, c.slots⟩ stop := by
  have outside : ∀ v x, x < offset ∨ offset + bytes ≤ x →
      cfgwrite c.d.cfgdata offset v bytes x = c.d.cfgdata x :=
    fun v x apart => cfgwrite_other _ _ within.width apart
  unfold capWriteAt
  simp only [linked_id inv.linked member]
  by_cases kind : s.id = pciyMsi
  · rw [if_pos kind]
    have held := msi_write_held ((inv.held s member).msi kind) within (msi kind)
    refine inv_inside inv member within (outside _) ⟨rfl, rfl⟩ ⟨fun _ => held, ?_⟩
      (fun other => absurd kind other) fun _ => rfl
    intro also
    rw [kind] at also
    cases also
  rw [if_neg kind]
  by_cases kind' : s.id = pciyMsix
  · rw [if_pos kind']
    have held := msix_write_held ((inv.held s member).msix kind') within (msix kind')
    have places : ∀ x, x < offset ∨ offset + bytes ≤ x →
        (msixcapCfgwrite c.d s.off offset bytes val).1.cfgdata x = c.d.cfgdata x := by
      intro x apart
      unfold msixcapCfgwrite
      split
      · exact outside _ x apart
      · exact outside _ x apart
    refine inv_inside inv member within places ?_ ⟨fun also => absurd also kind, fun _ => held⟩
      ?_ (fun other => absurd kind' other)
    all_goals
      unfold msixcapCfgwrite
      split
    · exact ⟨rfl, rfl⟩
    · exact ⟨rfl, rfl⟩
    · exact fun _ => rfl
    · exact fun _ => rfl
  rw [if_neg kind']
  have held : ∀ d' : Devinst, Held d' s := fun d' =>
    ⟨fun also => absurd also kind, fun also => absurd also kind'⟩
  by_cases express : s.id = pciyExpress
  · rw [if_pos express]
    exact inv_inside inv member within (outside val) ⟨rfl, rfl⟩ (held _) (fun _ => rfl) fun _ => rfl
  · rw [if_neg express]
    exact inv

end

section
variable {c : Config} {d : Devinst} {stop : Nat}

theorem capwrite_inv (inv : Inv c stop) {coff bytes : Nat} {val : BitVec 32}
    (width : bytes = 1 ∨ bytes = 2 ∨ bytes = 4) (aligned : coff % bytes = 0)
    (cap : pciEmulIscap c.d coff = true) (kept : ∀ s ∈ c.slots, Kept c.d coff bytes val s) :
    ∃ d' actions, pciEmulCapwrite c.d coff bytes val = some (d', actions) ∧
      Inv ⟨d', c.slots⟩ stop := by
  obtain ⟨s, member, found, low, high⟩ := capability_found inv cap
  obtain ⟨-, -, whole, size, positive⟩ := inv_mem inv member
  have here := kept s member
  unfold Kept Slot.access at here
  unfold pciEmulCapwrite
  simp only [found, if_neg (Nat.not_lt.mpr low)]
  by_cases head : coff = s.off ∧ bytes = 4
  · rw [if_pos head] at here
    rw [if_pos (.inl head.1), if_pos head]
    have within : Within s (s.off + 2) 2 := ⟨by simp, by omega, whole, by omega, by omega⟩
    rw [head.1]
    exact ⟨_, _, rfl, cap_write_inv inv member within here.1 here.2⟩
  · rw [if_neg head] at here
    by_cases start : coff = s.off ∨ coff = s.off + 1
    · rw [if_pos start, if_neg head]
      exact ⟨_, _, rfl, inv⟩
    · rw [if_neg start]
      have within : Within s coff bytes := by
        refine ⟨width, aligned, whole, by omega, ?_⟩
        rcases width with rfl | rfl | rfl <;> omega
      exact ⟨_, _, rfl, cap_write_inv inv member within here.1 here.2⟩

theorem write_inv (inv : Inv c stop) (coff bytes : Nat) (val : BitVec 32)
    (kept : ∀ s ∈ c.slots, Kept c.d coff bytes val s) :
    ∃ d' actions, pciCfgwrite c.d coff bytes val = some (d', actions) ∧
      Inv ⟨d', c.slots⟩ stop := by
  unfold pciCfgwrite
  by_cases ignored : (bytes ≠ 1 ∧ bytes ≠ 2 ∧ bytes ≠ 4) ∨ coff % bytes ≠ 0 ∨ pciRegmax + 1 ≤ coff
  · rw [if_pos ignored]
    exact ⟨_, _, rfl, inv⟩
  rw [if_neg ignored]
  have width : bytes = 1 ∨ bytes = 2 ∨ bytes = 4 := by omega
  have aligned : coff % bytes = 0 := by omega
  by_cases bars : pcirBar 0 ≤ coff ∧ coff < pcirBar (pciBarmax + 1)
  · rw [if_pos bars]
    by_cases dword : bytes ≠ 4
    · rw [if_pos dword]
      exact ⟨_, _, rfl, inv⟩
    · rw [if_neg dword]
      obtain ⟨bar, value, actions, shape⟩ := bar_write_shape c.d ((coff - pcirBar 0) / 4) val
      refine ⟨_, _, congrArg some shape, ?_⟩
      unfold pcirBar pciBarmax at *
      refine inv_beside inv (fun x above below => ?_) ?_ ⟨rfl, rfl⟩ rfl rfl
      · unfold capStartOffset at above
        exact write32_other _ _ (by omega)
      · unfold Devinst.status pcirStatus
        rw [read16_write32_other _ _ (by omega)]
  rw [if_neg bars]
  by_cases cap : pciEmulIscap c.d coff = true
  · rw [if_pos cap]
    exact capwrite_inv inv width aligned cap kept
  rw [if_neg cap]
  have beside : ∀ x, capStartOffset ≤ x → x < stop → x < coff ∨ coff + bytes ≤ x := by
    intro x above below
    unfold pciEmulIscap at cap
    by_contra hit
    unfold capStartOffset at *
    have some_slot : c.slots ≠ [] := by
      intro none
      have laid := inv.laid
      rw [none] at laid
      have : 0x40 = stop := laid
      omega
    obtain ⟨-, end_⟩ := inv.last _ (getLast?_eq_some_getLast some_slot)
    rw [inv.present, decide_eq_true some_slot, Bool.true_and, decide_eq_true_iff] at cap
    have whole := fun s member => (inv_mem (s := s) inv member)
    have := whole _ (getLast_mem some_slot)
    rcases width with rfl | rfl | rfl <;> omega
  by_cases command : pcirCommand ≤ coff ∧ coff < pcirRevid
  · rw [if_pos command]
    refine ⟨_, _, rfl, inv_beside inv (fun x above below => ?_) ?_ ⟨rfl, rfl⟩ rfl rfl⟩
    · refine cmdsts_other val width aligned command (.inr ?_)
      unfold pcirStatus capStartOffset at *
      omega
    · have status : (pciEmulCmdstsWrite c.d coff val bytes).1.status = c.d.status :=
        read16_congr (cmdsts_other val width aligned command (.inr (Nat.le_refl _)))
          (cmdsts_other val width aligned command (.inr (Nat.le_succ _)))
      exact congrArg (fun x => x.getLsbD statusCappresent) status
  · rw [if_neg command]
    refine ⟨_, _, rfl, inv_beside inv (fun x above below => ?_) ?_ ⟨rfl, rfl⟩ rfl rfl⟩
    · exact cfgwrite_other _ _ width (beside x above below)
    · unfold Devinst.status
      unfold pcirCommand pcirRevid pcirStatus at *
      rw [read16_congr (cfgwrite_other _ _ width ?_) (cfgwrite_other _ _ width ?_)]
      all_goals rcases width with rfl | rfl | rfl <;> omega

end

section
variable {c : Config} {d : Devinst} {stop : Nat} {capdata : List (BitVec 8)}

theorem store_bytes_other (l : List (BitVec 8)) : ∀ (cfg : Mem) a x,
    x < a ∨ a + l.length ≤ x → storeBytes cfg a l x = cfg x := by
  induction l with
  | nil =>
    intro cfg a x _
    rfl
  | cons b rest ih =>
    intro cfg a x outside
    rw [length_cons] at outside
    rw [storeBytes, ih _ _ _ (by omega), write8_other _ _ (by omega)]

theorem store_bytes_at (l : List (BitVec 8)) : ∀ (cfg : Mem) a i, i < l.length →
    storeBytes cfg a l (a + i) = l.getD i 0 := by
  induction l with
  | nil =>
    intro cfg a i inside
    cases inside
  | cons b rest ih =>
    intro cfg a i inside
    rw [storeBytes]
    cases i with
    | zero =>
      rw [store_bytes_other _ _ _ _ (.inl (by omega)), Nat.add_zero, write8_same]
      rfl
    | succ i =>
      rw [show a + (i + 1) = a + 1 + i by omega, ih _ _ _ (by simpa using inside)]
      rfl

structure Grown (c : Config) (stop : Nat) (capdata : List (BitVec 8)) (d : Devinst) : Prop where
  room : stop + roundup4 capdata.length ≤ 256
  places : d.prevcap = stop ∧ d.capend = stop + roundup4 capdata.length - 1
  msi : d.msi = c.d.msi
  msix : d.msix = c.d.msix
  status : d.status.getLsbD statusCappresent = true
  old : ∀ x, capStartOffset ≤ x → x < stop → (c.slots ≠ [] → x ≠ c.d.prevcap + 1) →
    d.cfgdata x = c.d.cfgdata x
  next : c.slots ≠ [] → d.cfgdata (c.d.prevcap + 1) = BitVec.ofNat 8 stop
  last : d.cfgdata (stop + 1) = 0
  data : ∀ i < capdata.length, i ≠ 1 → d.cfgdata (stop + i) = capdata.getD i 0

theorem last_place (inv : Inv c stop) (some_slot : c.slots ≠ []) :
    c.d.prevcap = (c.slots.getLast some_slot).off ∧ c.d.capend + 1 = stop :=
  inv.last _ (getLast?_eq_some_getLast some_slot)

theorem grown (inv : Inv c stop) (added_ : pciEmulAddCapability c.d capdata = some d) :
    Grown c stop capdata d := by
  unfold pciEmulAddCapability at added_
  simp only [inv.present] at added_
  by_cases none : c.slots = []
  · have laid := inv.laid
    rw [none] at laid
    obtain rfl : capStartOffset = stop := laid
    simp only [none, ne_eq, not_true_eq_false, decide_false, Bool.false_eq_true, if_false] at added_
    split at added_
    · cases added_
    rename_i room
    cases added_
    refine ⟨by unfold pciRegmax at room; omega, ⟨rfl, rfl⟩, rfl, rfl, ?_, ?_, ?_, ?_, ?_⟩
    · have same : ∀ x, x = pcirStatus ∨ x = pcirStatus + 1 → ∀ cfg : Mem,
          write8 (storeBytes cfg capStartOffset capdata) (capStartOffset + 1) 0 x = cfg x := by
        intro x place cfg
        unfold pcirStatus capStartOffset at *
        rw [write8_other _ _ (by omega), store_bytes_other _ _ _ _ (.inl (by omega))]
      unfold Devinst.status
      simp only
      rw [read16_congr (same _ (.inl rfl) _) (same _ (.inr rfl) _), read16_write16_same]
      simp [statusCappresent]
    · intro x above below
      omega
    · exact fun some_slot => absurd none some_slot
    · simp only [write8_same]
    · intro i inside other
      simp only
      rw [write8_other _ _ (by omega), store_bytes_at _ _ _ _ inside]
  · simp only [none, ne_eq, not_false_eq_true, decide_true, if_true] at added_
    obtain ⟨prev, end_⟩ := last_place inv none
    obtain ⟨low, high, -, whole, positive⟩ := inv_mem inv (getLast_mem none)
    rw [end_] at added_
    split at added_
    · cases added_
    rename_i room
    cases added_
    unfold capStartOffset at low
    refine ⟨by unfold pciRegmax at room; omega, ⟨rfl, rfl⟩, rfl, rfl, ?_, ?_, ?_, ?_, ?_⟩
    · have same : ∀ x, x < 0x40 → write8 (storeBytes (write8 c.d.cfgdata (c.d.prevcap + 1)
          (BitVec.ofNat 8 stop)) stop capdata) (stop + 1) 0 x = c.d.cfgdata x := by
        intro x below
        rw [write8_other _ _ (by omega), store_bytes_other _ _ _ _ (.inl (by omega)),
          write8_other _ _ (by omega)]
      unfold Devinst.status
      simp only
      rw [read16_congr (same pcirStatus (by decide)) (same (pcirStatus + 1) (by decide))]
      exact inv.present.trans (decide_eq_true none)
    · intro x above below other
      simp only
      rw [write8_other _ _ (by omega), store_bytes_other _ _ _ _ (.inl below),
        write8_other _ _ (other none)]
    · intro _
      simp only
      rw [write8_other _ _ (by omega), store_bytes_other _ _ _ _ (.inl (by omega)),
        write8_same]
    · simp only [write8_same]
    · intro i inside other
      simp only
      rw [write8_other _ _ (by omega), store_bytes_at _ _ _ _ inside]

theorem zero_field {x y p q : BitVec 8} (high : x &&& p = 0) (low : y &&& q = 0) :
    (x ++ y : BitVec 16) &&& (p ++ q : BitVec 16) = 0 := by
  rw [and_append, high, low]
  rfl

theorem added_held (inv : Inv c stop) (addable : Addable c.slots capdata)
    (change : Grown c stop capdata d) : Held d (added d capdata) := by
  have ctrl : ∀ i, i = 2 ∨ i = 3 → i < capdata.length →
      d.cfgdata (d.prevcap + i) = capdata.getD i 0 := by
    intro i place inside
    rw [change.places.1]
    exact change.data i inside (by omega)
  constructor
  · intro kind
    obtain ⟨off, size, wide⟩ := addable.msi kind
    have word : (added d capdata).ctrl = capdata.getD 3 0 ++ capdata.getD 2 0 := by
      show (d.cfgdata (d.prevcap + 3) ++ d.cfgdata (d.prevcap + 2) : BitVec 16) = _
      rw [ctrl 3 (.inr rfl) (by omega), ctrl 2 (.inl rfl) (by omega)]
    have off_ : (added d capdata).ctrl &&& msictrlEnable = 0 := by
      rw [word]
      exact zero_field (p := 0) (q := 1) and_zero off
    have disabled : d.msi.enabled = false := by
      rw [change.msi]
      refine inv.noMsi fun s member => ?_
      rw [← show capdata.headD 0 = pciyMsi from kind]
      exact addable.only (.inl kind) s member
    refine ⟨⟨rfl, ?_, fun on => ?_⟩, fun _ on => ?_, ?_, fun is_wide => ?_⟩
    · rw [disabled]
      exact (decide_eq_false (not_not.mpr off_)).symm
    · rw [disabled] at on
      cases on
    · rw [disabled] at on
      cases on
    · show 12 ≤ roundup4 capdata.length
      unfold roundup4
      omega
    · have more : 12 < capdata.length := by
        refine wide fun low => is_wide ?_
        rw [word]
        exact zero_field (p := 0) (q := 0x80) and_zero low
      show 16 ≤ roundup4 capdata.length
      unfold roundup4
      omega
  · intro kind
    obtain ⟨off, size⟩ := addable.msix kind
    have word : (added d capdata).ctrl = capdata.getD 3 0 ++ capdata.getD 2 0 := by
      show (d.cfgdata (d.prevcap + 3) ++ d.cfgdata (d.prevcap + 2) : BitVec 16) = _
      rw [ctrl 3 (.inr rfl) (by omega), ctrl 2 (.inl rfl) (by omega)]
    have zero : ∀ p : BitVec 8, 0xc0 &&& p = p →
        (added d capdata).ctrl &&& (p ++ (0 : BitVec 8) : BitVec 16) = 0 := by
      intro p inside
      rw [word]
      refine zero_field ?_ and_zero
      rw [← inside, ← BitVec.and_assoc, off]
      exact zero_and
    have disabled : d.msix.enabled = false ∧ d.msix.functionMask = false := by
      rw [change.msix]
      refine inv.noMsix fun s member => ?_
      rw [← show capdata.headD 0 = pciyMsix from kind]
      exact addable.only (.inr kind) s member
    refine ⟨rfl, ?_, ?_⟩
    · rw [disabled.1]
      exact (decide_eq_false (not_not.mpr (zero 0x80 (by decide)))).symm
    · rw [disabled.2]
      exact (decide_eq_false (not_not.mpr (zero 0x40 (by decide)))).symm

theorem add_inv (inv : Inv c stop) (addable : Addable c.slots capdata) (filled : capdata ≠ [])
    (added_ : pciEmulAddCapability c.d capdata = some d) :
    Inv ⟨d, c.slots ++ [added d capdata]⟩ (stop + roundup4 capdata.length) := by
  have change := grown inv added_
  have long := List.length_pos_iff.mpr filled
  have off : (added d capdata).off = stop := change.places.1
  have size : 0 < roundup4 capdata.length ∧ roundup4 capdata.length % 4 = 0 := by
    unfold roundup4
    omega
  have prev : ∀ s ∈ c.slots, c.d.prevcap = s.off ∨ c.d.prevcap + 1 < s.off ∨
      s.off + s.size ≤ c.d.prevcap := by
    intro s member
    have some_slot := ne_nil_of_mem member
    obtain ⟨place, -⟩ := last_place inv some_slot
    have there := getLast_mem some_slot
    have := inv_mem inv there
    by_cases self : s = c.slots.getLast some_slot
    · exact .inl (by rw [place, ← self])
    · have apart := slots_apart inv there member self
      unfold Slot.Apart at apart
      omega
  have kept : ∀ s ∈ c.slots, ∀ x, s.off ≤ x → x < s.off + s.size → x ≠ s.off + 1 →
      d.cfgdata x = c.d.cfgdata x := by
    intro s member x above below other
    have := inv_mem inv member
    have apart := prev s member
    refine change.old x (by omega) (by omega) fun _ => ?_
    omega
  refine ⟨?_, laid_snoc inv.laid size.1 size.2 off, change.room, ?_, ?_, ?_, ?_, ?_, ?_⟩
  · refine linked_snoc inv.linked ?_ ?_ ?_ ?_ ?_
    · rw [off]
      have first := change.data 0 long (by decide)
      rw [Nat.add_zero] at first
      rw [first]
      cases capdata <;> rfl
    · rw [off]
      exact change.last
    · intro s member
      have := inv_mem inv member
      exact kept s member _ (Nat.le_refl _) (by omega) (by omega)
    · intro s member
      have there := mem_of_mem_dropLast member
      have some_slot := ne_nil_of_mem there
      have := inv_mem inv there
      have whole := inv_mem inv (getLast_mem some_slot)
      obtain ⟨place, -⟩ := last_place inv some_slot
      have apart := laid_apart inv.laid rfl
      rw [← dropLast_append_getLast some_slot] at apart
      have apart := (List.pairwise_append.mp apart).2.2 s member _ mem_cons_self
      unfold Slot.Apart at apart
      refine change.old _ (by omega) (by omega) fun _ => ?_
      omega
    · intro s last
      have place := (inv.last s last).1
      rw [← place, off]
      refine change.next ?_
      rintro none
      rw [none] at last
      cases last
  · rw [change.status]
    simp
  · intro s last
    rw [getLast?_concat] at last
    obtain rfl := Option.mem_some.mp last
    refine ⟨rfl, ?_⟩
    show d.capend + 1 = _
    rw [change.places.2]
    omega
  · refine List.pairwise_append.mpr ⟨inv.only, pairwise_singleton _ _, ?_⟩
    intro s member t new kind same
    obtain rfl := List.mem_singleton.mp new
    have head : capdata.headD 0 = s.id := same
    rw [← head] at kind
    exact addable.only kind s member head.symm
  · intro s member
    rcases List.mem_append.mp member with old | new
    · have := inv_mem inv old
      refine held_congr (inv.held s old) (by omega) ?_ (fun _ => change.msi) fun _ => change.msix
      exact fun x above below => kept s old x (by omega) below (by omega)
    · obtain rfl := List.mem_singleton.mp new
      exact added_held inv addable change
  · intro none
    rw [change.msi]
    exact inv.noMsi fun s member => none s (mem_append_left _ member)
  · intro none
    rw [change.msix]
    exact inv.noMsix fun s member => none s (mem_append_left _ member)

end

section
variable {c : Config}

theorem room_of_added {d d' : Devinst} {capdata : List (BitVec 8)}
    (added_ : pciEmulAddCapability d capdata = some d') : HasRoom d capdata := by
  unfold pciEmulAddCapability at added_
  unfold HasRoom
  by_contra full
  rw [if_pos (by omega)] at added_
  cases added_

theorem step_inv (c : Config) (e : Step) (inv : ∃ stop, Inv c stop) (harmless : Harmless c e) :
    ∃ c', step c e = .ok c' ∧ ∃ stop, Inv c' stop := by
  obtain ⟨stop, inv⟩ := inv
  cases e with
  | add capdata =>
    obtain ⟨filled, addable⟩ := harmless
    simp only [step, if_neg filled]
    cases added_ : pciEmulAddCapability c.d capdata with
    | none => exact ⟨c, rfl, stop, inv⟩
    | some d => exact ⟨_, rfl, _, add_inv inv (addable (room_of_added added_)) filled added_⟩
  | write coff bytes val =>
    obtain ⟨d, actions, written, kept⟩ := write_inv inv coff bytes val harmless
    simp only [step, written]
    exact ⟨_, rfl, stop, kept⟩

theorem fresh_inv (header : Mem) : Inv ⟨.fresh header, []⟩ capStartOffset where
  linked := trivial
  laid := rfl
  small := by decide
  present := by
    simp [Devinst.status, Devinst.fresh, read16, pcirStatus, pcirCommand, pcirRevid]
  last := fun _ never => nomatch never
  only := List.Pairwise.nil
  held := fun _ never => nomatch never
  noMsi := fun _ => rfl
  noMsix := fun _ => ⟨rfl, rfl⟩

/-- The list of capabilities stays as it was built, its search ends where it is to, and the state of
    MSI and MSI-X is what their registers say, after any capabilities and any writes that are
    harmless. -/
theorem capabilities_coherent (header : Mem) (steps : List Step)
    (harmless : AlongAttempts step Harmless ⟨.fresh header, []⟩ steps) :
    ∃ c, attempts step ⟨.fresh header, []⟩ steps = .ok c ∧ Coherent c := by
  obtain ⟨c, ran, stop, inv⟩ :=
    attempts_succeed step_inv steps _ ⟨capStartOffset, fresh_inv header⟩ harmless
  exact ⟨c, ran, coherent_of_inv inv⟩

def fourEntries : List (BitVec 8) := [0x11, 0, 3, 0, 0, 0, 0, 0, 0, 0x10, 0, 0]

theorem capabilities_coherent_two : ∃ c, attempts step ⟨.fresh fun _ => 0, []⟩
      [.add fourEntries, .add [0x05, 0, 0x80, 0, 0, 0, 0, 0, 0, 0, 0, 0, 0, 0],
        .write 0x40 4 0xc0030000, .write 0x50 4 0xfee00000, .write 0x4e 1 0x81] = .ok c ∧
    Coherent c :=
  capabilities_coherent _ _ (by decide +kernel)

theorem byte_turns_msix_on : ∃ c, attempts step ⟨.fresh fun _ => 0, []⟩
      [.add fourEntries, .write 0x43 1 0x80] = .ok c ∧ ¬ Coherent c := by
  refine ⟨_, rfl, fun coherent => ?_⟩
  have on := (coherent.msix _ (mem_append_right _ mem_cons_self) rfl).enabled
  exact absurd on (by decide +kernel)

end
end Pci
