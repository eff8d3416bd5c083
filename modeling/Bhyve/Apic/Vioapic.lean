import Bhyve.Apic.Destination

/-!
The I/O APIC that vioapic.c emulates. Its functions change one entry of the redirection table
at a time; the interrupts they hand to vlapic_deliver_intr are kept in a list in the order of
the calls. A flag of an entry is named by the number of its bit. A C int that overflows has no
value, so the count of asserts is an Int.
-/
namespace Apic
open Function BitVec

abbrev Pin := Fin 32

def ioregsel : BitVec 64 := 0x00
def iowin : BitVec 64 := 0x10
def ioapicId : Nat := 0x00
def ioapicRedtbl : Nat := 0x10
def apicIdMask : BitVec 32 := 0xff000000
def apicIdShift : Nat := 24

def ioartDestMod : Nat := 11
def ioartDelivs : Nat := 12
def ioartIntPol : Nat := 13
def ioartRemIrr : Nat := 14
def ioartTrgrLvl : Nat := 15
def ioartIntMask : Nat := 16
def ioartIntVec : BitVec 32 := 0xff

def rtblRoBits : BitVec 64 := BitVec.twoPow 64 ioartRemIrr ||| BitVec.twoPow 64 ioartDelivs

structure RedirEntry where
  reg : BitVec 64
  acnt : Int
deriving DecidableEq

structure Vioapic where
  id : BitVec 32
  ioregsel : BitVec 32
  rtbl : Pin → RedirEntry

def vioapicInit : Vioapic := ⟨0, 0, fun _ => ⟨0x0001000000010000, 0⟩⟩

structure Route where
  level : Bool
  dest : BitVec 32
  phys : Bool
  delmode : BitVec 32
  vector : BitVec 32
deriving DecidableEq

structure Intr where
  pin : Pin
  route : Route
deriving DecidableEq

variable (e : RedirEntry)

def RedirEntry.low : BitVec 32 := e.reg.setWidth 32
def RedirEntry.high : BitVec 32 := (e.reg >>> 32).setWidth 32
def RedirEntry.masked : Bool := e.reg.getLsbD ioartIntMask
def RedirEntry.remIrr : Bool := e.reg.getLsbD ioartRemIrr

def RedirEntry.route : Route where
  level := e.low.getLsbD ioartTrgrLvl
  dest := e.high >>> apicIdShift
  phys := !e.low.getLsbD ioartDestMod
  delmode := e.low &&& ioartDelMode
  vector := e.low &&& ioartIntVec

def RedirEntry.setRemIrr : RedirEntry :=
  { e with reg := e.reg ||| BitVec.twoPow 64 ioartRemIrr }

def RedirEntry.clearRemIrr : RedirEntry :=
  { e with reg := e.reg &&& ~~~BitVec.twoPow 64 ioartRemIrr }

/-- What a function does to the entry of a pin, and the interrupts it sends. -/
abbrev PinAction := Pin → RedirEntry → RedirEntry × List Intr

def vioapicSendIntr : PinAction := fun pin e =>
  if e.masked then (e, [])
  else (if e.route.level then e.setRemIrr else e, [⟨pin, e.route⟩])

def vioapicSetPinstate (newstate : Bool) : PinAction := fun pin e =>
  let oldcnt := e.acnt
  let newcnt := if newstate then oldcnt + 1 else oldcnt - 1
  let needintr := decide (oldcnt = 0 ∧ newcnt = 1)
  if needintr then vioapicSendIntr pin { e with acnt := newcnt } else ({ e with acnt := newcnt }, [])

inductive Irqstate where
  | assert
  | deassert
  | pulse
deriving DecidableEq

def setPinIrqstate : Irqstate → PinAction
  | .assert => vioapicSetPinstate true
  | .deassert => vioapicSetPinstate false
  | .pulse => fun pin e =>
      let up := vioapicSetPinstate true pin e
      let down := vioapicSetPinstate false pin up.1
      (down.1, up.2 ++ down.2)

variable (e : RedirEntry)

def RedirEntry.write (upper : Bool) (data : BitVec 32) : RedirEntry × Bool :=
  let lshift := if upper then 32 else 0
  let data64 := data.setWidth 64 <<< lshift
  let mask64 := (0xffffffff : BitVec 64) <<< lshift
  let reg := (e.reg &&& (~~~mask64 ||| rtblRoBits)) ||| (data64 &&& ~~~rtblRoBits)
  let changed := e.reg ^^^ reg
  ({ e with reg := reg },
    decide (changed &&&
      ~~~(BitVec.twoPow 64 ioartIntMask ||| BitVec.twoPow 64 ioartIntPol) ≠ 0))

def sendAtWrite : PinAction := fun pin e =>
  if !e.masked && !e.remIrr && decide (0 < e.acnt) then vioapicSendIntr pin e else (e, [])

def pinEoi (vector : BitVec 32) : PinAction := fun pin e =>
  if !e.remIrr then (e, [])
  else if e.route.vector ≠ vector then (e, [])
  else if 0 < e.acnt then vioapicSendIntr pin e.clearRemIrr
  else (e.clearRemIrr, [])

variable (v : Vioapic)

def Vioapic.act (pin : Pin) (f : PinAction) : Vioapic × List Intr :=
  ({ v with rtbl := update v.rtbl pin (f pin (v.rtbl pin)).1 }, (f pin (v.rtbl pin)).2)

def Vioapic.actAll (f : PinAction) : List Pin → Vioapic → Vioapic × List Intr
  | [], v => (v, [])
  | pin :: rest, v =>
      let first := v.act pin f
      let later := Vioapic.actAll f rest first.1
      (later.1, first.2 ++ later.2)

def irqPin (irq : Int) : Option Pin :=
  if inside : irq < 0 ∨ 32 ≤ irq then none else some ⟨irq.toNat, by omega⟩

def vioapicSetIrqstate (irq : Int) (state : Irqstate) : Option (Vioapic × List Intr) :=
  (irqPin irq).map fun pin => v.act pin (setPinIrqstate state)

def vioapicProcessEoi (vector : BitVec 32) : Vioapic × List Intr :=
  Vioapic.actAll (pinEoi vector) (List.finRange 32) v

def vioapicWriteEntry (addr data : BitVec 32) : Vioapic × Option (Pin × Bool) :=
  let regnum := (addr &&& 0xff).toNat
  let v := if regnum = ioapicId then { v with id := data &&& apicIdMask } else v
  if inside : ioapicRedtbl ≤ regnum ∧ regnum < ioapicRedtbl + 32 * 2 then
    let pin : Pin := ⟨(regnum - ioapicRedtbl) / 2, by omega⟩
    let written := (v.rtbl pin).write (decide ((regnum - ioapicRedtbl) % 2 ≠ 0)) data
    ({ v with rtbl := update v.rtbl pin written.1 }, some (pin, written.2))
  else (v, none)

def vioapicMmioWrite (offset data : BitVec 64) (size : Nat) : Vioapic × Option (Pin × Bool) :=
  if size ≠ 4 ∨ (offset ≠ ioregsel ∧ offset ≠ iowin) then (v, none)
  else if offset = ioregsel then ({ v with ioregsel := data.setWidth 32 }, none)
  else vioapicWriteEntry v v.ioregsel (data.setWidth 32)

theorem low_bit {i : Nat} (inside : i < 32) : e.low.getLsbD i = e.reg.getLsbD i := by
  rw [RedirEntry.low, getLsbD_setWidth, decide_eq_true inside, Bool.true_and]

theorem high_bit {i : Nat} (inside : i < 32) : e.high.getLsbD i = e.reg.getLsbD (32 + i) := by
  rw [RedirEntry.high, getLsbD_setWidth, decide_eq_true inside, Bool.true_and,
    getLsbD_ushiftRight]

theorem route_of_bits {a b : RedirEntry}
    (alike : ∀ i, i ≠ ioartIntPol → i ≠ ioartRemIrr → i ≠ ioartIntMask →
      a.reg.getLsbD i = b.reg.getLsbD i) : a.route = b.route := by
  have field (mask : BitVec 32) (low : ∀ i < 32, 12 ≤ i → mask.getLsbD i = false) :
      a.low &&& mask = b.low &&& mask := by
    apply eq_of_getLsbD_eq
    intro i below
    rw [getLsbD_and, getLsbD_and, low_bit a below, low_bit b below]
    by_cases short : i < 12
    · rw [alike i (by simp only [ioartIntPol]; omega) (by simp only [ioartRemIrr]; omega)
        (by simp only [ioartIntMask]; omega)]
    · rw [low i below (Nat.le_of_not_lt short), Bool.and_false, Bool.and_false]
  have high : a.high = b.high := by
    apply eq_of_getLsbD_eq
    intro i below
    rw [high_bit a below, high_bit b below]
    exact alike _ (by simp only [ioartIntPol]; omega) (by simp only [ioartRemIrr]; omega)
      (by simp only [ioartIntMask]; omega)
  unfold RedirEntry.route
  rw [high, field ioartDelMode (by decide), field ioartIntVec (by decide),
    low_bit a (by decide), low_bit b (by decide), low_bit a (by decide), low_bit b (by decide),
    alike ioartTrgrLvl (by decide) (by decide) (by decide),
    alike ioartDestMod (by decide) (by decide) (by decide)]

section
variable (e : RedirEntry)

theorem set_rem_irr_bit {i : Nat} (other : i ≠ ioartRemIrr) :
    e.setRemIrr.reg.getLsbD i = e.reg.getLsbD i := by
  rw [RedirEntry.setRemIrr, getLsbD_or, getLsbD_twoPow,
    decide_eq_false (Ne.symm other), Bool.and_false, Bool.or_false]

theorem clear_rem_irr_bit {i : Nat} (other : i ≠ ioartRemIrr) :
    e.clearRemIrr.reg.getLsbD i = e.reg.getLsbD i := by
  rw [RedirEntry.clearRemIrr, getLsbD_and, getLsbD_not, getLsbD_twoPow,
    decide_eq_false (Ne.symm other), Bool.and_false, Bool.not_false, Bool.and_true]
  by_cases inside : i < 64
  · rw [decide_eq_true inside, Bool.and_true]
  · rw [getLsbD_of_ge e.reg i (Nat.le_of_not_lt inside), Bool.false_and]

@[simp] theorem set_rem_irr : e.setRemIrr.remIrr = true := by
  rw [RedirEntry.remIrr, RedirEntry.setRemIrr, getLsbD_or, getLsbD_twoPow]
  simp [ioartRemIrr]

@[simp] theorem clear_rem_irr : e.clearRemIrr.remIrr = false := by
  rw [RedirEntry.remIrr, RedirEntry.clearRemIrr, getLsbD_and, getLsbD_not,
    getLsbD_twoPow]
  simp [ioartRemIrr]

@[simp] theorem set_rem_irr_masked : e.setRemIrr.masked = e.masked :=
  set_rem_irr_bit e (by decide)

@[simp] theorem clear_rem_irr_masked : e.clearRemIrr.masked = e.masked :=
  clear_rem_irr_bit e (by decide)

@[simp] theorem set_rem_irr_route : e.setRemIrr.route = e.route :=
  route_of_bits fun _ _ other _ => set_rem_irr_bit e other

@[simp] theorem clear_rem_irr_route : e.clearRemIrr.route = e.route :=
  route_of_bits fun _ _ other _ => clear_rem_irr_bit e other

end

def SameSettings (a b : RedirEntry) : Prop := a.masked = b.masked ∧ a.route = b.route

theorem SameSettings.then {a b c : RedirEntry} (first : SameSettings a b)
    (later : SameSettings b c) : SameSettings a c :=
  ⟨first.1.trans later.1, first.2.trans later.2⟩

theorem send_intr_settings (pin : Pin) (e : RedirEntry) :
    SameSettings (vioapicSendIntr pin e).1 e ∧ (vioapicSendIntr pin e).1.acnt = e.acnt := by
  unfold vioapicSendIntr
  split
  · exact ⟨⟨rfl, rfl⟩, rfl⟩
  · split
    · exact ⟨⟨set_rem_irr_masked e, set_rem_irr_route e⟩, rfl⟩
    · exact ⟨⟨rfl, rfl⟩, rfl⟩

theorem count_settings (count : Int) : SameSettings { e with acnt := count } e := ⟨rfl, rfl⟩

theorem assert_eq (pin : Pin) (e : RedirEntry) : vioapicSetPinstate true pin e =
      if e.acnt = 0 then vioapicSendIntr pin { e with acnt := e.acnt + 1 }
      else ({ e with acnt := e.acnt + 1 }, []) := by
  have rises : (e.acnt = 0 ∧ e.acnt + 1 = 1) ↔ e.acnt = 0 := by omega
  simp only [vioapicSetPinstate, if_true, rises, decide_eq_true_eq]

theorem deassert_eq (pin : Pin) (e : RedirEntry) :
    vioapicSetPinstate false pin e = ({ e with acnt := e.acnt - 1 }, []) := by
  have falls : ¬ (e.acnt = 0 ∧ e.acnt - 1 = 1) := by omega
  simp only [vioapicSetPinstate, Bool.false_eq_true, if_false, falls, decide_false]

theorem set_pinstate_settings (newstate : Bool) (pin : Pin) (e : RedirEntry) :
    SameSettings (vioapicSetPinstate newstate pin e).1 e := by
  cases newstate with
  | false =>
    rw [deassert_eq]
    exact count_settings e _
  | true =>
    rw [assert_eq]
    split
    · exact (send_intr_settings pin { e with acnt := e.acnt + 1 }).1.then (count_settings e _)
    · exact count_settings e _

theorem send_at_write_settings (pin : Pin) (e : RedirEntry) :
    SameSettings (sendAtWrite pin e).1 e := by
  unfold sendAtWrite
  split
  · exact (send_intr_settings pin e).1
  · exact ⟨rfl, rfl⟩

theorem pin_eoi_settings (vector : BitVec 32) (pin : Pin) (e : RedirEntry) :
    SameSettings (pinEoi vector pin e).1 e := by
  have cleared : SameSettings e.clearRemIrr e := ⟨clear_rem_irr_masked e, clear_rem_irr_route e⟩
  unfold pinEoi
  split
  · exact ⟨rfl, rfl⟩
  · split
    · exact ⟨rfl, rfl⟩
    · split
      · exact (send_intr_settings pin _).1.then cleared
      · exact cleared

theorem write_route {e : RedirEntry} {upper : Bool} {data : BitVec 32}
    (quiet : (e.write upper data).2 = false) : (e.write upper data).1.route = e.route := by
  apply route_of_bits
  intro i pol _ mask
  have zero : (e.reg ^^^ (e.write upper data).1.reg) &&&
      ~~~(BitVec.twoPow 64 ioartIntMask ||| BitVec.twoPow 64 ioartIntPol) = 0 :=
    not_not.mp (of_decide_eq_false quiet)
  have here := congrArg (fun x => x.getLsbD i) zero
  simp only [getLsbD_and, getLsbD_xor, getLsbD_not, getLsbD_or,
    getLsbD_twoPow, decide_eq_false (Ne.symm pol), decide_eq_false (Ne.symm mask),
    Bool.and_false, Bool.or_false, Bool.not_false, Bool.and_true] at here
  by_cases inside : i < 64
  · rw [decide_eq_true inside, Bool.and_true] at here
    simp only [ofNat_eq_ofNat, getLsbD_zero, bne_eq_false_iff_eq] at here
    exact here.symm
  · rw [getLsbD_of_ge _ i (Nat.le_of_not_lt inside),
      getLsbD_of_ge _ i (Nat.le_of_not_lt inside)]

theorem write_rem_irr (upper : Bool) (data : BitVec 32) :
    (e.write upper data).1.remIrr = e.remIrr := by
  have kept : rtblRoBits.getLsbD ioartRemIrr = true := by decide
  have inside : ioartRemIrr < 64 := by decide
  unfold RedirEntry.write RedirEntry.remIrr
  simp only [getLsbD_or, getLsbD_and, getLsbD_not, kept, inside, decide_true,
    Bool.or_true, Bool.and_true, Bool.not_true, Bool.and_false, Bool.or_false]

theorem write_entry_cases (addr data : BitVec 32) :
    ((vioapicWriteEntry v addr data).1.rtbl = v.rtbl ∧ (vioapicWriteEntry v addr data).2 = none) ∨
      ∃ pin upper,
        (vioapicWriteEntry v addr data).1.rtbl =
            update v.rtbl pin ((v.rtbl pin).write upper data).1 ∧
          (vioapicWriteEntry v addr data).2 = some (pin, ((v.rtbl pin).write upper data).2) := by
  have identified : (if (addr &&& 0xff).toNat = ioapicId then { v with id := data &&& apicIdMask }
      else v).rtbl = v.rtbl := by
    split <;> rfl
  unfold vioapicWriteEntry
  dsimp only
  split
  · rw [identified]
    exact .inr ⟨_, _, rfl, rfl⟩
  · exact .inl ⟨identified, rfl⟩

theorem table_write_cases (offset data : BitVec 64) (size : Nat) :
    ((vioapicMmioWrite v offset data size).1.rtbl = v.rtbl ∧
        (vioapicMmioWrite v offset data size).2 = none) ∨
      ∃ pin upper word,
        (vioapicMmioWrite v offset data size).1.rtbl =
            update v.rtbl pin ((v.rtbl pin).write upper word).1 ∧
          (vioapicMmioWrite v offset data size).2 =
            some (pin, ((v.rtbl pin).write upper word).2) := by
  unfold vioapicMmioWrite
  split
  · exact .inl ⟨rfl, rfl⟩
  · split
    · exact .inl ⟨rfl, rfl⟩
    · obtain same | ⟨pin, upper, changed, asked⟩ :=
        write_entry_cases v v.ioregsel (data.setWidth 32)
      · exact .inl same
      · exact .inr ⟨pin, upper, _, changed, asked⟩

theorem mmio_write_rem_irr (offset data : BitVec 64) (size : Nat) (pin : Pin) :
    ((vioapicMmioWrite v offset data size).1.rtbl pin).remIrr = (v.rtbl pin).remIrr := by
  obtain ⟨same, -⟩ | ⟨written, upper, word, changed, -⟩ := table_write_cases v offset data size
  · rw [same]
  · rw [changed]
    by_cases here : pin = written
    · subst here
      rw [update_self]
      exact write_rem_irr ..
    · rw [update_of_ne here]

@[simp] theorem act_here (v : Vioapic) (pin : Pin) (f : PinAction) :
    (v.act pin f).1.rtbl pin = (f pin (v.rtbl pin)).1 := update_self ..

theorem act_there {pin other : Pin} (f : PinAction) (apart : other ≠ pin) :
    (v.act pin f).1.rtbl other = v.rtbl other := update_of_ne apart ..

theorem act_all_pins (f : PinAction) (pins : List Pin) (once : pins.Nodup) (v : Vioapic) :
    (∀ pin, (pin ∈ pins → (Vioapic.actAll f pins v).1.rtbl pin = (f pin (v.rtbl pin)).1) ∧
        (pin ∉ pins → (Vioapic.actAll f pins v).1.rtbl pin = v.rtbl pin)) ∧
      (Vioapic.actAll f pins v).2 = pins.flatMap fun pin => (f pin (v.rtbl pin)).2 := by
  induction pins generalizing v with
  | nil => exact ⟨fun pin => ⟨nofun, fun _ => rfl⟩, rfl⟩
  | cons first rest ih =>
    obtain ⟨fresh, others⟩ := List.nodup_cons.mp once
    obtain ⟨entries, sent⟩ := ih others (v.act first f).1
    have untouched (pin : Pin) (member : pin ∈ rest) :
        (v.act first f).1.rtbl pin = v.rtbl pin := by
      apply act_there
      rintro rfl
      exact fresh member
    constructor
    · intro pin
      constructor
      · intro member
        obtain rfl | later := List.mem_cons.mp member
        · exact ((entries pin).2 fresh).trans (act_here v pin f)
        · rw [← untouched pin later]
          exact (entries pin).1 later
      · intro absent
        have here : pin ≠ first := fun same => absent (same ▸ List.mem_cons_self)
        have later : pin ∉ rest := fun member => absent (List.mem_cons_of_mem first member)
        exact ((entries pin).2 later).trans (act_there v f here)
    · have same : (rest.flatMap fun pin => (f pin ((v.act first f).1.rtbl pin)).2) =
          rest.flatMap fun pin => (f pin (v.rtbl pin)).2 := by
        apply List.flatMap_congr
        intro pin member
        rw [untouched pin member]
      rw [List.flatMap_cons, ← same, ← sent]
      rfl

theorem process_eoi_pins (vector : BitVec 32) :
    (∀ pin, (vioapicProcessEoi v vector).1.rtbl pin = (pinEoi vector pin (v.rtbl pin)).1) ∧
      (vioapicProcessEoi v vector).2 =
        (List.finRange 32).flatMap fun pin => (pinEoi vector pin (v.rtbl pin)).2 := by
  obtain ⟨entries, sent⟩ := act_all_pins (pinEoi vector) _ (List.nodup_finRange 32) v
  exact ⟨fun pin => (entries pin).1 (List.mem_finRange pin), sent⟩

theorem set_irqstate_cases (irq : Int) (state : Irqstate) : vioapicSetIrqstate v irq state = none ∨
      ∃ pin, vioapicSetIrqstate v irq state = some (v.act pin (setPinIrqstate state)) := by
  unfold vioapicSetIrqstate
  cases irqPin irq with
  | none => exact .inl rfl
  | some pin => exact .inr ⟨pin, rfl⟩

end Apic
