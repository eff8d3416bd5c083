import Bhyve.Rtc.Timekeeping

/-!
INT 1Ah AH=02h to 05h of the boot ROM over the virtual RTC, which it leaves in BCD mode.
-/
namespace Rtc
open ByteMemory Fallible

structure ClockRegs where
  ch : BitVec 8
  cl : BitVec 8
  dh : BitVec 8
  dl : BitVec 8
  deriving DecidableEq

/-- Binary in AL to BCD: the quotient by 10 in the high nibble, the remainder in the low. -/
def u8Bcd (al : BitVec 8) : BitVec 8 := (al / 10) <<< 4 ||| al % 10

def u8Dcb (ah : BitVec 8) : BitVec 8 := (ah >>> 4) * 10 + (ah &&& 0x0f)

variable (kernel : Kernel)

def rtcRead (now : Int) (v : Vrtc) (reg : BitVec 8) : Except Fault (Vrtc × BitVec 8) := do
  let (v, _, _) := vrtcAddrHandler v false 1 reg
  let (v, val, error) ← vrtcDataHandler kernel now v true 1 reg
  if error = 0 then .ok (v, val) else .error .stopped

def rtcWrite (now : Int) (v : Vrtc) (reg val : BitVec 8) : Except Fault Vrtc := do
  let (v, _, _) := vrtcAddrHandler v false 1 reg
  let (v, _, error) ← vrtcDataHandler kernel now v false 1 val
  if error = 0 then .ok v else .error .stopped

def rtcAddressSeconds : BitVec 8 := 0
def rtcAddressMinutes : BitVec 8 := 2
def rtcAddressHours : BitVec 8 := 4
def rtcAddressDayOfTheMonth : BitVec 8 := 7
def rtcAddressMonth : BitVec 8 := 8
def rtcAddressYear : BitVec 8 := 9
def rtcAddressCentury : BitVec 8 := 50

def int1a02 (now : Int) (v : Vrtc) : Except Fault (Vrtc × ClockRegs) := do
  let (v, hour) ← rtcRead kernel now v rtcAddressHours
  let (v, min) ← rtcRead kernel now v rtcAddressMinutes
  let (v, sec) ← rtcRead kernel now v rtcAddressSeconds
  .ok (v, ⟨u8Bcd hour, u8Bcd min, u8Bcd sec, 0⟩)

def int1a03 (now : Int) (v : Vrtc) (regs : ClockRegs) : Except Fault Vrtc := do
  let v ← rtcWrite kernel now v rtcAddressHours (u8Dcb regs.ch)
  let v ← rtcWrite kernel now v rtcAddressMinutes (u8Dcb regs.cl)
  rtcWrite kernel now v rtcAddressSeconds (u8Dcb regs.dh)

def int1a04 (now : Int) (v : Vrtc) : Except Fault (Vrtc × ClockRegs) := do
  let (v, century) ← rtcRead kernel now v rtcAddressCentury
  let (v, year) ← rtcRead kernel now v rtcAddressYear
  let (v, month) ← rtcRead kernel now v rtcAddressMonth
  let (v, day) ← rtcRead kernel now v rtcAddressDayOfTheMonth
  .ok (v, ⟨u8Bcd century, u8Bcd year, u8Bcd month, u8Bcd day⟩)

def int1a05 (now : Int) (v : Vrtc) (regs : ClockRegs) : Except Fault Vrtc := do
  let v ← rtcWrite kernel now v rtcAddressCentury (u8Dcb regs.ch)
  let v ← rtcWrite kernel now v rtcAddressYear (u8Dcb regs.cl)
  let v ← rtcWrite kernel now v rtcAddressMonth (u8Dcb regs.dh)
  rtcWrite kernel now v rtcAddressDayOfTheMonth (u8Dcb regs.dl)

def bcdByte (n : Nat) : Nat := n / 10 * 16 + n % 10

inductive ClockRequest where
  | readTime
  | readDate
  | setTime (hour min sec : Nat)
  | setDate (century year mon day : Nat)

def ValidRequest : ClockRequest → Prop
  | .readTime | .readDate => True
  | .setTime hour min sec => hour ≤ 23 ∧ min ≤ 59 ∧ sec ≤ 59
  | .setDate century year mon day => century ≤ 99 ∧ year ≤ 99 ∧ 1 ≤ mon ∧ mon ≤ 12 ∧ 1 ≤ day ∧ day ≤ 31

def TimeShown (regs : ClockRegs) (hour min sec : Nat) : Prop :=
  regs.ch = bin2bcd hour ∧ regs.cl = bin2bcd min ∧ regs.dh = bin2bcd sec

def DateShown (regs : ClockRegs) (century year mon day : Nat) : Prop :=
  regs.ch = bin2bcd century ∧ regs.cl = bin2bcd year ∧ regs.dh = bin2bcd mon ∧ regs.dl = bin2bcd day

/-- The service returns, and what a read then returns is the time held or the value set.
    All port accesses are taken to happen at one uptime. -/
def Served (now : Int) (v : Vrtc) (ct : Clocktime) : ClockRequest → Prop
  | .readTime => ∃ v' regs, int1a02 kernel now v = .ok (v', regs) ∧
      TimeShown regs ct.hour ct.min ct.sec
  | .readDate => ∃ v' regs, int1a04 kernel now v = .ok (v', regs) ∧
      DateShown regs (ct.year / 100) (ct.year % 100) ct.mon ct.day
  | .setTime hour min sec => ∃ v₁ v₂ regs,
      int1a03 kernel now v ⟨bin2bcd hour, bin2bcd min, bin2bcd sec, 0⟩ = .ok v₁ ∧
      int1a02 kernel now v₁ = .ok (v₂, regs) ∧ TimeShown regs hour min sec
  | .setDate century year mon day => ∃ v₁ v₂ regs,
      int1a05 kernel now v ⟨bin2bcd century, bin2bcd year, bin2bcd mon, bin2bcd day⟩ = .ok v₁ ∧
      int1a04 kernel now v₁ = .ok (v₂, regs) ∧ DateShown regs century year mon day

/-- Times are read right when every field is a single digit, dates never. A set value is
    read back when it is the BCD byte already in the device; and a date also when its
    century breaks the clock of a host that lets it be broken. -/
def ServedWhen (ct : Clocktime) : ClockRequest → Prop
  | .readTime => ct.hour < 10 ∧ ct.min < 10 ∧ ct.sec < 10
  | .readDate => False
  | .setTime hour min sec => hour = bcdByte ct.hour ∧ min = bcdByte ct.min ∧ sec = bcdByte ct.sec
  | .setDate century year mon day =>
      (CenturyTaken kernel ct century ∧ year = bcdByte (ct.year % 100) ∧ mon = bcdByte ct.mon ∧
        day = bcdByte ct.day) ∨
      (¬ CenturyTaken kernel ct century ∧ kernel.flagBrokenTime = false)

theorem bcd_twice (n : Nat) (small : n < 100) : u8Bcd (bin2bcd n) = bin2bcd (bcdByte n) := by
  interval_cases n <;> rfl

theorem bcd_back (n : Nat) (small : n < 100) : u8Dcb (bin2bcd n) = BitVec.ofNat 8 n := by
  interval_cases n <;> rfl

theorem bcd_of_binary (n : Nat) (small : n < 100) : u8Bcd (BitVec.ofNat 8 n) = bin2bcd n := by
  interval_cases n <;> rfl

variable {n century : Nat} {kernel : Kernel} {now t : Int} {v w : Vrtc} {regs : ClockRegs}

theorem bcd_injective {k : Nat} (left : n < 160) (right : k < 160) (same : bin2bcd n = bin2bcd k) :
    n = k := by
  have bytes := congrArg BitVec.toNat same
  simp only [bin2bcd, BitVec.toNat_ofNat] at bytes
  omega

theorem bcd_byte_small (small : n < 100) : bcdByte n < 160 := by
  unfold bcdByte
  omega

theorem bcd_byte_fixed (n : Nat) : bcdByte n = n ↔ n < 10 := by
  unfold bcdByte
  omega

theorem time_reg_facts : ∀ reg : BitVec 8, isTimeOffset reg.toNat = true →
    (reg &&& 0x7f).toNat = reg.toNat ∧ reg.toNat < sizeofRtcdev ∧ reg.toNat ≠ rtcRegA ∧
      reg.toNat ≠ rtcRegB ∧ reg.toNat ≠ rtcRegC ∧ reg.toNat ≠ rtcRegD := by
  decide

theorem rtc_read_of {reg : BitVec 8} (field : isTimeOffset reg.toNat = true)
    (refreshed : vrtcRefresh kernel now { v with addr := reg.toNat } reg.toNat = .ok w) :
    rtcRead kernel now v reg = .ok (w, w.rtcdev reg.toNat) := by
  obtain ⟨masked, small, _, _, notC, _⟩ := time_reg_facts reg field
  have handled : vrtcDataHandler kernel now { v with addr := reg.toNat } true 1 reg =
      .ok (w, w.rtcdev reg.toNat, 0) := by
    simp only [vrtcDataHandler, Nat.not_le.mpr small, ne_eq, not_true_eq_false, ↓reduceIte]
    refine (bind_ok refreshed).trans ?_
    simp only [notC, ↓reduceIte]
  unfold rtcRead
  simp only [vrtcAddrHandler, ne_eq, not_true_eq_false, Bool.false_eq_true, ↓reduceIte, masked]
  exact bind_ok handled

theorem rtc_write_of {reg : BitVec 8} (field : isTimeOffset reg.toNat = true)
    (plain : reg.toNat ≠ rtcCentury) (val : BitVec 8)
    (refreshed : vrtcRefresh kernel now { v with addr := reg.toNat } reg.toNat = .ok w) :
    rtcWrite kernel now v reg val =
      .ok (w.store reg.toNat (if reg.toNat = rtcSec then val &&& 0x7f else val)) := by
  obtain ⟨masked, small, notA, notB, notC, notD⟩ := time_reg_facts reg field
  have written : vrtcDataOut kernel now w reg.toNat val =
      .ok (w.store reg.toNat (if reg.toNat = rtcSec then val &&& 0x7f else val), 0) := by
    simp only [vrtcDataOut, notA, notB, notC, notD, or_self, plain, false_and, ↓reduceIte]
    rfl
  have handled : vrtcDataHandler kernel now { v with addr := reg.toNat } false 1 val =
      .ok (w.store reg.toNat (if reg.toNat = rtcSec then val &&& 0x7f else val), val, 0) := by
    simp only [vrtcDataHandler, Nat.not_le.mpr small, ne_eq, not_true_eq_false, Bool.false_eq_true,
      ↓reduceIte]
    exact (bind_ok refreshed).trans (bind_ok written)
  unfold rtcWrite
  simp only [vrtcAddrHandler, ne_eq, not_true_eq_false, Bool.false_eq_true, ↓reduceIte, masked]
  exact bind_ok handled

section
variable {kernel : Kernel} (lawful : LawfulClock kernel) {now t : Int} {v : Vrtc}
  (holding : Holding kernel now t v) {reg : BitVec 8} (field : isTimeOffset reg.toNat = true)
include lawful holding field

theorem read_holding : ∃ w, rtcRead kernel now v reg =
        .ok (w, stamped v.rtcdev (kernel.clockTsToCt t) reg.toNat) ∧ Holding kernel now t w := by
  have addressed := holding_bytes holding v.rtcdev reg.toNat rfl rfl
  obtain ⟨w, refreshed, held, bytes⟩ := refresh_holding lawful addressed field
  refine ⟨w, ?_, held⟩
  rw [rtc_read_of field refreshed, bytes]

theorem write_holding (plain : reg.toNat ≠ rtcCentury) (val : BitVec 8) :
    ∃ w, rtcWrite kernel now v reg val = .ok w ∧ Holding kernel now t w := by
  have addressed := holding_bytes holding v.rtcdev reg.toNat rfl rfl
  obtain ⟨w, refreshed, held, _⟩ := refresh_holding lawful addressed field
  obtain ⟨_, _, notA, notB, _, _⟩ := time_reg_facts reg field
  refine ⟨_, rtc_write_of field plain val refreshed, ?_⟩
  exact holding_bytes held _ w.addr (write8_other _ _ notA.symm) (write8_other _ _ notB.symm)

end

section
variable (lawful : LawfulClock kernel) (holding : Holding kernel now t v)
include lawful holding

theorem get_time_holding {ct : Clocktime} (date : kernel.clockTsToCt t = ct) :
    ∃ w, int1a02 kernel now v = .ok (w, ⟨u8Bcd (bin2bcd ct.hour), u8Bcd (bin2bcd ct.min),
      u8Bcd (bin2bcd ct.sec), 0⟩) := by
  subst date
  obtain ⟨v₁, hour, held₁⟩ := @read_holding kernel lawful now t v holding rtcAddressHours rfl
  obtain ⟨v₂, min, held₂⟩ := @read_holding kernel lawful now t v₁ held₁ rtcAddressMinutes rfl
  obtain ⟨v₃, sec, _⟩ := @read_holding kernel lawful now t v₂ held₂ rtcAddressSeconds rfl
  refine ⟨v₃, ?_⟩
  refine (bind_ok hour).trans ?_
  refine (bind_ok min).trans ?_
  exact bind_ok sec

theorem get_date_holding {ct : Clocktime} (date : kernel.clockTsToCt t = ct) :
    ∃ w, int1a04 kernel now v = .ok (w, ⟨u8Bcd (bin2bcd (ct.year / 100)),
      u8Bcd (bin2bcd (ct.year % 100)), u8Bcd (bin2bcd ct.mon), u8Bcd (bin2bcd ct.day)⟩) := by
  subst date
  obtain ⟨v₁, century, held₁⟩ := @read_holding kernel lawful now t v holding rtcAddressCentury rfl
  obtain ⟨v₂, year, held₂⟩ := @read_holding kernel lawful now t v₁ held₁ rtcAddressYear rfl
  obtain ⟨v₃, mon, held₃⟩ := @read_holding kernel lawful now t v₂ held₂ rtcAddressMonth rfl
  obtain ⟨v₄, day, _⟩ := @read_holding kernel lawful now t v₃ held₃ rtcAddressDayOfTheMonth rfl
  refine ⟨v₄, ?_⟩
  refine (bind_ok century).trans ?_
  refine (bind_ok year).trans ?_
  refine (bind_ok mon).trans ?_
  exact bind_ok day

theorem set_time_holding (regs : ClockRegs) :
    ∃ w, int1a03 kernel now v regs = .ok w ∧ Holding kernel now t w := by
  obtain ⟨v₁, hour, held₁⟩ := @write_holding kernel lawful now t v holding rtcAddressHours rfl
    (by decide) (u8Dcb regs.ch)
  obtain ⟨v₂, min, held₂⟩ := @write_holding kernel lawful now t v₁ held₁ rtcAddressMinutes rfl
    (by decide) (u8Dcb regs.cl)
  obtain ⟨v₃, sec, held₃⟩ := @write_holding kernel lawful now t v₂ held₂ rtcAddressSeconds rfl
    (by decide) (u8Dcb regs.dh)
  refine ⟨v₃, ?_, held₃⟩
  exact (bind_ok hour).trans ((bind_ok min).trans sec)

end

theorem century_write_of (val : BitVec 8)
    (refreshed : vrtcRefresh kernel now { v with addr := rtcCentury } rtcCentury = .ok w)
    (regB : w.regB = 0x0a) {after : Vrtc} {error : Int}
    (written : centuryWritten kernel now (w.store rtcCentury val) = .ok (after, error)) :
    rtcWrite kernel now v rtcAddressCentury val = if error = 0 then .ok after else .error .stopped := by
  obtain ⟨running, _, _⟩ := @rom_reg_b_off (w.store rtcCentury val) regB
  have stored : vrtcDataOut kernel now w rtcCentury val = .ok (after, error) := by
    refine Eq.trans ?_ written
    show (if rtcCentury = rtcCentury ∧ (!rtcHalted (w.store rtcCentury val)) = true then
      centuryWritten kernel now (w.store rtcCentury val) else _) = _
    rw [running]
    exact if_pos ⟨rfl, rfl⟩
  have handled : vrtcDataHandler kernel now { v with addr := rtcCentury } false 1 val =
      .ok (after, val, error) := (bind_ok refreshed).trans (bind_ok stored)
  exact bind_ok handled

theorem century_refreshed (lawful : LawfulClock kernel) (holding : Holding kernel now t v)
    (byte : BitVec 8) :
    ∃ w, vrtcRefresh kernel now { v with addr := rtcCentury } rtcCentury = .ok w ∧
      Holding kernel now t w ∧
      (w.store rtcCentury byte).rtcdev =
        write8 (stamped v.rtcdev (kernel.clockTsToCt t)) rtcCentury byte := by
  have addressed := holding_bytes holding v.rtcdev rtcCentury rfl rfl
  obtain ⟨w, refreshed, held, bytes⟩ := @refresh_holding kernel lawful now t _ addressed rtcCentury rfl
  exact ⟨w, refreshed, held, congrArg (fun rtc => write8 rtc rtcCentury byte) bytes⟩

theorem century_taken_holding (lawful : LawfulClock kernel) (holding : Holding kernel now t v)
    (taken : CenturyTaken kernel (kernel.clockTsToCt t) century) :
    ∃ w c moved, rtcWrite kernel now v rtcAddressCentury (BitVec.ofNat 8 century) = .ok w ∧
      Holding kernel now moved w ∧ bin2bcd c = BitVec.ofNat 8 century ∧ c < 100 ∧
      kernel.clockTsToCt moved = { kernel.clockTsToCt t with
        year := c * 100 + (kernel.clockTsToCt t).year % 100
        dow := (kernel.clockTsToCt moved).dow } := by
  obtain ⟨w, refreshed, held, stored⟩ :=
    century_refreshed lawful holding (BitVec.ofNat 8 century)
  have valid := lawful.valid t holding.positive
  obtain ⟨c, byte, small, positive, date⟩ :=
    century_taken_secs lawful valid stored holding.regB taken
  have known := positive_known positive
  have written := century_written_of
    (time_update_moves kernel (w.store rtcCentury (BitVec.ofNat 8 century)) known now
      (rom_reg_b_off held.regB))
  simp only [known, false_and, ↓reduceIte] at written
  refine ⟨_, c, _, century_write_of _ refreshed held.regB written, ?_, byte, small, date⟩
  apply @holding_set kernel now _ { w.store rtcCentury (BitVec.ofNat 8 century) with
    baseUptime := now
    baseRtctime := rtcToSecs kernel (w.store rtcCentury (BitVec.ofNat 8 century)) } held.regB
    held.divider rfl (Int.le_refl now)
  · rw [Int.sub_self]
    decide
  · exact positive
  · rw [date]
    show c * 100 + (kernel.clockTsToCt t).year % 100 < 10000
    omega

section
variable {kernel : Kernel} {now : Int} {v : Vrtc} (broken : Broken v) {reg : BitVec 8}
  (field : isTimeOffset reg.toNat = true)
include broken field

theorem read_broken :
    ∃ w, rtcRead kernel now v reg = .ok (w, v.rtcdev reg.toNat) ∧ Broken w ∧ w.rtcdev = v.rtcdev := by
  have addressed : Broken { v with addr := reg.toNat } := ⟨broken.regB, broken.time⟩
  have refreshed := @refresh_broken kernel now _ addressed reg.toNat
  exact ⟨{ v with addr := reg.toNat }, rtc_read_of field refreshed, addressed, rfl⟩

theorem write_broken (plain : reg.toNat ≠ rtcCentury)
    (notSec : reg.toNat ≠ rtcSec) (val : BitVec 8) :
    ∃ w, rtcWrite kernel now v reg val = .ok w ∧ Broken w ∧
      w.rtcdev = write8 v.rtcdev reg.toNat val := by
  obtain ⟨_, _, _, notB, _, _⟩ := time_reg_facts reg field
  have kept : write8 v.rtcdev reg.toNat val rtcRegB = 0x0a :=
    (write8_other _ _ notB.symm).trans broken.regB
  have addressed : Broken { v with addr := reg.toNat } := ⟨broken.regB, broken.time⟩
  have refreshed := @refresh_broken kernel now _ addressed reg.toNat
  have written := rtc_write_of field plain val refreshed
  rw [if_neg notSec] at written
  exact ⟨_, written, ⟨kept, broken.time⟩, rfl⟩

end

section
variable (lawful : LawfulClock kernel) (holding : Holding kernel now t v)
include lawful holding

theorem century_refused_breaks (refused : ¬ CenturyTaken kernel (kernel.clockTsToCt t) century) :
    ∃ w, rtcWrite kernel now v rtcAddressCentury (BitVec.ofNat 8 century) =
        (if kernel.flagBrokenTime then .error .stopped else .ok w) ∧ Broken w ∧
      w.rtcdev rtcCentury = BitVec.ofNat 8 century := by
  obtain ⟨w, refreshed, held, stored⟩ :=
    century_refreshed lawful holding (BitVec.ofNat 8 century)
  have valid := lawful.valid t holding.positive
  have secs := century_refused_secs valid stored holding.regB refused
  have updated := time_update_breaks kernel (w.store rtcCentury (BitVec.ofNat 8 century)) now
  rw [← secs] at updated
  have result := century_write_of _ refreshed held.regB (century_written_of updated)
  refine ⟨{ w.store rtcCentury (BitVec.ofNat 8 century) with
    baseUptime := now
    baseRtctime := rtcToSecs kernel (w.store rtcCentury (BitVec.ofNat 8 century)) },
    result.trans ?_, ⟨held.regB, secs⟩, rfl⟩
  cases flag : kernel.flagBrokenTime with
  | true => simp only [secs, and_self, ↓reduceIte]; rfl
  | false => simp only [Bool.false_eq_true, and_false, ↓reduceIte]

theorem set_date_taken (taken : CenturyTaken kernel (kernel.clockTsToCt t) century)
    (binary : u8Dcb regs.ch = BitVec.ofNat 8 century) :
    ∃ w c moved, int1a05 kernel now v regs = .ok w ∧ Holding kernel now moved w ∧
      bin2bcd c = BitVec.ofNat 8 century ∧ c < 100 ∧
      kernel.clockTsToCt moved = { kernel.clockTsToCt t with
        year := c * 100 + (kernel.clockTsToCt t).year % 100
        dow := (kernel.clockTsToCt moved).dow } := by
  obtain ⟨v₁, c, moved, first, held₁, byte, small, date⟩ :=
    century_taken_holding lawful holding taken
  obtain ⟨v₂, year, held₂⟩ := @write_holding kernel lawful now moved v₁ held₁ rtcAddressYear rfl
    (by decide) (u8Dcb regs.cl)
  obtain ⟨v₃, mon, held₃⟩ := @write_holding kernel lawful now moved v₂ held₂ rtcAddressMonth rfl
    (by decide) (u8Dcb regs.dh)
  obtain ⟨v₄, day, held₄⟩ := @write_holding kernel lawful now moved v₃ held₃ rtcAddressDayOfTheMonth
    rfl (by decide) (u8Dcb regs.dl)
  refine ⟨v₄, c, moved, ?_, held₄, byte, small, date⟩
  unfold int1a05
  rw [binary]
  exact (bind_ok first).trans ((bind_ok year).trans ((bind_ok mon).trans day))

theorem set_date_stopped (refused : ¬ CenturyTaken kernel (kernel.clockTsToCt t) century)
    (binary : u8Dcb regs.ch = BitVec.ofNat 8 century) (flag : kernel.flagBrokenTime = true) :
    int1a05 kernel now v regs = .error .stopped := by
  obtain ⟨v₁, first, _, _⟩ := century_refused_breaks lawful holding refused
  rw [if_pos flag] at first
  unfold int1a05
  rw [binary, first]
  rfl

theorem set_date_broken (refused : ¬ CenturyTaken kernel (kernel.clockTsToCt t) century)
    (binary : u8Dcb regs.ch = BitVec.ofNat 8 century) (flag : kernel.flagBrokenTime = false) :
    ∃ w₁ w₂, int1a05 kernel now v regs = .ok w₁ ∧
      int1a04 kernel now w₁ = .ok (w₂, ⟨u8Bcd (BitVec.ofNat 8 century), u8Bcd (u8Dcb regs.cl),
        u8Bcd (u8Dcb regs.dh), u8Bcd (u8Dcb regs.dl)⟩) := by
  obtain ⟨v₁, first, broken₁, century₁⟩ := century_refused_breaks lawful holding refused
  rw [if_neg (by rw [flag]; exact Bool.false_ne_true)] at first
  obtain ⟨v₂, year, broken₂, bytes₂⟩ := @write_broken kernel now v₁ broken₁ rtcAddressYear rfl
    (by decide) (by decide) (u8Dcb regs.cl)
  obtain ⟨v₃, mon, broken₃, bytes₃⟩ := @write_broken kernel now v₂ broken₂ rtcAddressMonth rfl
    (by decide) (by decide) (u8Dcb regs.dh)
  obtain ⟨v₄, day, broken₄, bytes₄⟩ := @write_broken kernel now v₃ broken₃ rtcAddressDayOfTheMonth rfl
    (by decide) (by decide) (u8Dcb regs.dl)
  rw [bytes₂] at bytes₃
  rw [bytes₃] at bytes₄
  obtain ⟨v₅, readCentury, broken₅, bytes₅⟩ := @read_broken kernel now v₄ broken₄ rtcAddressCentury rfl
  obtain ⟨v₆, readYear, broken₆, bytes₆⟩ := @read_broken kernel now v₅ broken₅ rtcAddressYear rfl
  obtain ⟨v₇, readMonth, broken₇, bytes₇⟩ := @read_broken kernel now v₆ broken₆ rtcAddressMonth rfl
  obtain ⟨v₈, readDay, _, _⟩ := @read_broken kernel now v₇ broken₇ rtcAddressDayOfTheMonth rfl
  rw [bytes₇, bytes₆, bytes₅, bytes₄] at readDay
  rw [bytes₆, bytes₅, bytes₄] at readMonth
  rw [bytes₅, bytes₄] at readYear
  rw [bytes₄] at readCentury
  refine ⟨v₄, v₈, ?_, ?_⟩
  · unfold int1a05
    rw [binary]
    exact (bind_ok first).trans ((bind_ok year).trans ((bind_ok mon).trans day))
  · refine (bind_ok readCentury).trans ?_
    refine (bind_ok readYear).trans ?_
    refine (bind_ok readMonth).trans ?_
    refine (bind_ok readDay).trans ?_
    rw [← century₁]
    rfl

end

theorem twice_shown_iff {k : Nat} (held : n < 100) (asked : k < 100) :
    u8Bcd (bin2bcd n) = bin2bcd k ↔ k = bcdByte n := by
  rw [bcd_twice n held]
  constructor
  · intro same
    exact (bcd_injective (bcd_byte_small held) (by omega) same).symm
  · intro same
    rw [same]

theorem twice_right_iff (held : n < 100) : u8Bcd (bin2bcd n) = bin2bcd n ↔ n < 10 := by
  rw [twice_shown_iff held held, eq_comm]
  exact bcd_byte_fixed n

theorem ran_iff {x : Except Fault (Vrtc × ClockRegs)} {out : ClockRegs} (ran : x = .ok (w, out))
    (shown : ClockRegs → Prop) : (∃ v regs, x = .ok (v, regs) ∧ shown regs) ↔ shown out := by
  constructor
  · rintro ⟨v, regs, result, right⟩
    cases ran.symm.trans result
    exact right
  · intro right
    exact ⟨w, out, ran, right⟩

theorem set_ran_iff {x : Except Fault Vrtc} {read : Vrtc → Except Fault (Vrtc × ClockRegs)}
    {w' : Vrtc} {out : ClockRegs} (set : x = .ok w) (ran : read w = .ok (w', out))
    (shown : ClockRegs → Prop) :
    (∃ v v' regs, x = .ok v ∧ read v = .ok (v', regs) ∧ shown regs) ↔ shown out := by
  constructor
  · rintro ⟨v, v', regs, first, second, right⟩
    cases set.symm.trans first
    cases ran.symm.trans second
    exact right
  · intro right
    exact ⟨w, w', out, set, ran, right⟩

theorem set_date_served_iff (lawful : LawfulClock kernel) (holding : Holding kernel now t v)
    {year mon day : Nat} (valid : ValidRequest (.setDate century year mon day)) :
    Served kernel now v (kernel.clockTsToCt t) (.setDate century year mon day) ↔
      ServedWhen kernel (kernel.clockTsToCt t) (.setDate century year mon day) := by
  obtain ⟨centuryDigits, yearDigits, _, monDigits, _, dayDigits⟩ := valid
  have ranges := of_decide_eq_true (lawful.valid t holding.positive)
  have binary : u8Dcb (⟨bin2bcd century, bin2bcd year, bin2bcd mon, bin2bcd day⟩ : ClockRegs).ch =
      BitVec.ofNat 8 century := bcd_back century (by omega)
  simp only [Served, ServedWhen]
  by_cases taken : CenturyTaken kernel (kernel.clockTsToCt t) century
  · obtain ⟨w, c, moved, set, held, byte, small, date⟩ := set_date_taken lawful holding taken binary
    obtain ⟨w', ran⟩ := get_date_holding lawful held rfl
    have newCentury : (kernel.clockTsToCt moved).year / 100 = c := by
      rw [date]
      show (c * 100 + (kernel.clockTsToCt t).year % 100) / 100 = c
      omega
    have sameYear : (kernel.clockTsToCt moved).year % 100 = (kernel.clockTsToCt t).year % 100 := by
      rw [date]
      show (c * 100 + (kernel.clockTsToCt t).year % 100) % 100 = (kernel.clockTsToCt t).year % 100
      omega
    have sameMonth : (kernel.clockTsToCt moved).mon = (kernel.clockTsToCt t).mon := by rw [date]
    have sameDay : (kernel.clockTsToCt moved).day = (kernel.clockTsToCt t).day := by rw [date]
    have shown : u8Bcd (bin2bcd c) = bin2bcd century := by
      rw [byte]
      exact bcd_of_binary century (by omega)
    rw [newCentury, sameYear, sameMonth, sameDay] at ran
    rw [set_ran_iff set ran]
    simp only [DateShown, taken, not_true_eq_false, false_and, or_false, true_and, shown]
    rw [twice_shown_iff (by omega) (by omega), twice_shown_iff (by omega) (by omega),
      twice_shown_iff (by omega) (by omega)]
  · cases flag : kernel.flagBrokenTime with
    | true =>
      have stopped := set_date_stopped lawful holding taken binary flag
      simp [stopped, taken]
    | false =>
      obtain ⟨w, w', set, ran⟩ := set_date_broken lawful holding taken binary flag
      rw [set_ran_iff set ran]
      simp only [DateShown, taken, not_false_eq_true, false_and, or_true, and_self, iff_true]
      rw [bcd_back year (by omega), bcd_back mon (by omega), bcd_back day (by omega)]
      exact ⟨bcd_of_binary century (by omega), bcd_of_binary year (by omega),
        bcd_of_binary mon (by omega), bcd_of_binary day (by omega)⟩

/-- For every time the RTC holds, each of the clock services gives the time held, or gives
    back the value set, exactly under the condition of its request. -/
theorem clock_served_iff {kernel : Kernel} (lawful : LawfulClock kernel) {now t : Int} {v : Vrtc}
    (holding : Holding kernel now t v) (request : ClockRequest) (valid : ValidRequest request) :
    Served kernel now v (kernel.clockTsToCt t) request ↔
      ServedWhen kernel (kernel.clockTsToCt t) request := by
  have ranges := of_decide_eq_true (lawful.valid t holding.positive)
  have fourDigits := holding.year
  cases request with
  | readTime =>
    obtain ⟨w, ran⟩ := get_time_holding lawful holding rfl
    simp only [Served, ServedWhen]
    rw [ran_iff ran]
    simp only [TimeShown]
    rw [twice_right_iff (by omega), twice_right_iff (by omega), twice_right_iff (by omega)]
  | readDate =>
    obtain ⟨w, ran⟩ := get_date_holding lawful holding rfl
    simp only [Served, ServedWhen]
    rw [ran_iff ran]
    simp only [DateShown, iff_false]
    intro right
    have small := (twice_right_iff (by omega)).mp right.1
    have base : posixBaseYear = 1970 := rfl
    omega
  | setTime hour min sec =>
    obtain ⟨hours, minutes, seconds⟩ := valid
    obtain ⟨w, set, held⟩ := set_time_holding lawful holding
      ⟨bin2bcd hour, bin2bcd min, bin2bcd sec, 0⟩
    obtain ⟨w', ran⟩ := get_time_holding lawful held rfl
    simp only [Served, ServedWhen]
    rw [set_ran_iff set ran]
    simp only [TimeShown]
    rw [twice_shown_iff (by omega) (by omega), twice_shown_iff (by omega) (by omega),
      twice_shown_iff (by omega) (by omega)]
  | setDate century year mon day => exact set_date_served_iff lawful holding valid

def januaryKernel : Kernel where
  clockTsToCt t :=
    let secs := t.toNat
    ⟨secs % 60, secs / 60 % 60, secs / 3600 % 24, min (secs / 86400) 30 + 1, 1, 1970,
      ((secs / 86400 + 4) % 7 : Nat)⟩
  clockCtToTs ct :=
    if ct.year = 1970 ∧ ct.mon = 1 ∧ 1 ≤ ct.day ∧ ct.day ≤ 31 ∧ ct.hour ≤ 23 ∧ ct.min ≤ 59 ∧ ct.sec ≤ 59
    then some (((ct.day - 1) * 86400 + ct.hour * 3600 + ct.min * 60 + ct.sec : Nat) : Int)
    else none
  flagBrokenTime := true

theorem january_lawful : LawfulClock januaryKernel := by
  constructor
  · intro t positive
    apply decide_eq_true
    simp only [januaryKernel, posixBaseYear]
    omega
  · intro ct t _ found _
    simp only [januaryKernel] at found
    split at found
    · rename_i inside
      have secs := Option.some.inj found
      simp only [januaryKernel, Clocktime.mk.injEq, and_true] at *
      omega
    · cases found

def romRtc (t : Int) : Vrtc :=
  ⟨rtcRegD, 0, t, write8 (write8 (fun _ => 0) rtcRegA 0x28) rtcRegB 0x0a, ⟨false, false⟩, 0⟩

theorem rom_rtc_holding (positive : 0 ≤ t) : Holding januaryKernel 0 t (romRtc t) := by
  have divider : dividerEnabled (romRtc t).regA = true := by
    show dividerEnabled 0x28 = true
    decide
  apply @holding_set januaryKernel 0 t (romRtc t) rfl divider rfl
  · exact Int.le_refl 0
  · show (0 : Int) - 0 < sbt1s
    decide
  · exact positive
  · show 1970 < 10000
    decide

theorem clock_served_iff_morning :
    Served januaryKernel 0 (romRtc 32703) (januaryKernel.clockTsToCt 32703) .readTime := by
  have digits : (januaryKernel.clockTsToCt 32703).hour < 10 ∧
      (januaryKernel.clockTsToCt 32703).min < 10 ∧ (januaryKernel.clockTsToCt 32703).sec < 10 := by
    decide
  exact (clock_served_iff january_lawful (rom_rtc_holding (by decide)) .readTime trivial).mpr digits

theorem ten_hours_read_as_sixteen :
    ¬ Served januaryKernel 0 (romRtc 36000) (januaryKernel.clockTsToCt 36000) .readTime := by
  rintro ⟨v, regs, ran, shown⟩
  have read : (int1a02 januaryKernel 0 (romRtc 36000)).toOption.map (fun out => out.2.ch) =
      some 0x16 := by decide
  rw [ran] at read
  have held : regs.ch = 0x16 := Option.some.inj read
  have right : regs.ch = 0x10 := shown.1
  rw [held] at right
  revert right
  decide

end Rtc
