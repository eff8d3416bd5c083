import Mathlib.Tactic.IntervalCases
import Bhyve.Lib.Fallible
import Bhyve.Rtc.Vrtc

/-!
What the RTC does between port accesses, in the mode the ROM runs it in.
-/
namespace Rtc
open ByteMemory Fallible

/-- What the kernel's calendar promises: a time from 1970 on has a date within the ranges
    that secs_to_rtc asserts, and a date that has a time is the date of that time. -/
structure LawfulClock (kernel : Kernel) : Prop where
  valid : ∀ t, 0 ≤ t → validClocktime (kernel.clockTsToCt t) = true
  inverse : ∀ ct t, posixBaseYear ≤ ct.year → kernel.clockCtToTs ct = some t → 0 ≤ t →
    kernel.clockTsToCt t = { ct with dow := (kernel.clockTsToCt t).dow }

/-- The RTC after the ROM's setup, running, and showing time t at the uptime now. The year
    has four digits: rtcset asserts that its table has the century. -/
structure Holding (kernel : Kernel) (now t : Int) (v : Vrtc) : Prop where
  regB : v.regB = 0x0a
  divider : dividerEnabled v.regA = true
  running : v.baseRtctime ≠ brokenTime
  elapsed : v.baseUptime ≤ now
  current : (vrtcCurtime now v).1 = t
  positive : 0 ≤ t
  year : (kernel.clockTsToCt t).year < 10000

theorem bcd_mode_bits {regB : BitVec 8} (mode : regB = rtcsb24hr ∨ regB = 0x0a) :
    hasBits regB rtcsbHalt = false ∧ hasBits regB rtcsbBin = false ∧
      hasBits regB rtcsb24hr = true := by
  rcases mode with initial | rom
  · subst initial; decide
  · subst rom; decide

theorem rtcset_bcd {regB : BitVec 8} (bcd : hasBits regB rtcsbBin = false) {n : Nat} (small : n < 100) :
    rtcset regB n = .ok (bin2bcd n) := by
  unfold rtcset
  rw [if_neg (by omega), bcd]
  rfl

def stamped (rtc : Mem) (ct : Clocktime) : Mem :=
  stampFields rtc (bin2bcd ct.sec) (bin2bcd ct.min) (bin2bcd ct.hour) (bin2bcd (ct.dow.toNat + 1))
    (bin2bcd ct.day) (bin2bcd ct.mon) (bin2bcd (ct.year % 100)) (bin2bcd (ct.year / 100))

theorem stamped_regs (rtc : Mem) (ct : Clocktime) :
    stamped rtc ct rtcRegA = rtc rtcRegA ∧ stamped rtc ct rtcRegB = rtc rtcRegB := by
  constructor <;> rfl

variable {kernel : Kernel} {t now : Int} {v : Vrtc} {rtc : Mem} {ct : Clocktime}

theorem secs_to_rtc_stamps (lawful : LawfulClock kernel) (positive : 0 ≤ t)
    (year : (kernel.clockTsToCt t).year < 10000) (v : Vrtc)
    (mode : v.regB = rtcsb24hr ∨ v.regB = 0x0a) : secsToRtc kernel t v false =
      .ok { v with rtcdev := stamped v.rtcdev (kernel.clockTsToCt t) } := by
  have valid := lawful.valid t positive
  have ranges := of_decide_eq_true valid
  obtain ⟨halt, bcd, wide⟩ := bcd_mode_bits mode
  unfold secsToRtc
  rw [if_neg (by omega)]
  simp only [rtcHalted, halt, valid, hourField, wide, Bool.false_and, Bool.false_eq_true,
    ↓reduceIte, Bool.not_true]
  rw [bind_ok (rtcset_bcd bcd (by omega)), bind_ok (rtcset_bcd bcd (by omega)),
    bind_ok (rtcset_bcd bcd (by omega)), bind_ok (rtcset_bcd bcd (by omega)),
    bind_ok (rtcset_bcd bcd (by omega)), bind_ok (rtcset_bcd bcd (by omega)),
    bind_ok (rtcset_bcd bcd (by omega)), bind_ok (rtcset_bcd bcd (by omega))]
  rfl

theorem rom_reg_b_off {v : Vrtc} (regB : v.regB = 0x0a) :
    rtcHalted v = false ∧ aintrEnabled v = false ∧ uintrEnabled v = false := by
  unfold rtcHalted aintrEnabled uintrEnabled
  rw [regB]
  decide

theorem turn_moves (kernel : Kernel) (alarms : BitVec 8 × BitVec 8 × BitVec 8) (oldtime newtime : Int)
    {v : Vrtc} (silent : aintrEnabled v = false) :
    timeUpdateTurn kernel alarms oldtime newtime v = .ok { v with baseRtctime := newtime } := by
  have still : aintrEnabled { v with baseRtctime := newtime } = false := silent
  simp only [timeUpdateTurn, silent, still, Bool.false_and, Bool.false_eq_true, ↓reduceIte]

theorem time_update_moves (kernel : Kernel) (v : Vrtc) {newtime : Int} (known : newtime ≠ brokenTime)
    (newbase : Int) (off : rtcHalted v = false ∧ aintrEnabled v = false ∧ uintrEnabled v = false) :
    vrtcTimeUpdate kernel v newtime newbase =
      .ok ({ v with baseUptime := newbase, baseRtctime := newtime }, 0) := by
  obtain ⟨running, silent, quiet⟩ := off
  have running' : rtcHalted { v with baseUptime := newbase } = false := running
  have quiet' : uintrEnabled { v with baseUptime := newbase, baseRtctime := newtime } = false := quiet
  by_cases same : newtime = v.baseRtctime
  · simp only [vrtcTimeUpdate, same, ↓reduceIte]
  · have looped : ∀ alarms fuel, timeUpdateLoop kernel alarms v.baseRtctime newtime (fuel + 1)
        { v with baseUptime := newbase } =
        .ok { v with baseUptime := newbase, baseRtctime := newtime } := by
      intro alarms fuel
      refine (bind_ok (@turn_moves kernel alarms _ newtime { v with baseUptime := newbase } silent)).trans ?_
      exact if_pos rfl
    simp only [vrtcTimeUpdate, same, known, running', Bool.false_eq_true, ↓reduceIte]
    rw [bind_ok (looped _ _)]
    simp only [quiet', Bool.false_eq_true, ↓reduceIte]

theorem time_update_breaks (kernel : Kernel) (v : Vrtc) (newbase : Int) :
    vrtcTimeUpdate kernel v brokenTime newbase =
      .ok ({ v with baseUptime := newbase, baseRtctime := brokenTime }, 0) := by
  by_cases same : brokenTime = v.baseRtctime
  · simp only [vrtcTimeUpdate, same, ↓reduceIte]
  · simp only [vrtcTimeUpdate, same, ↓reduceIte]

theorem rest_of_second {delta : Int} (forward : 0 ≤ delta) :
    0 ≤ delta - delta.tdiv sbt1s * sbt1s ∧ delta - delta.tdiv sbt1s * sbt1s < sbt1s := by
  have split := Int.tmod_add_tdiv_mul delta sbt1s
  have lower := Int.tmod_nonneg sbt1s forward
  have upper := Int.tmod_lt_of_pos delta (by decide : 0 < sbt1s)
  omega

theorem rom_update_enabled {v : Vrtc} (regB : v.regB = 0x0a) (divider : dividerEnabled v.regA = true)
    (running : v.baseRtctime ≠ brokenTime) : updateEnabled v = true := by
  obtain ⟨halted, _, _⟩ := rom_reg_b_off regB
  simp [updateEnabled, divider, halted, running]

theorem positive_known (positive : 0 ≤ t) : t ≠ brokenTime := by
  unfold brokenTime
  omega

theorem holding_set {kernel : Kernel} {now t : Int} {v : Vrtc} (regB : v.regB = 0x0a)
    (divider : dividerEnabled v.regA = true) (time : v.baseRtctime = t) (elapsed : v.baseUptime ≤ now)
    (recent : now - v.baseUptime < sbt1s) (positive : 0 ≤ t)
    (year : (kernel.clockTsToCt t).year < 10000) : Holding kernel now t v := by
  have running : v.baseRtctime ≠ brokenTime := by
    rw [time]
    exact positive_known positive
  refine ⟨regB, divider, running, elapsed, ?_, positive, year⟩
  have rest : (now - v.baseUptime).tdiv sbt1s = 0 :=
    Int.tdiv_eq_zero_of_lt (by omega) recent
  rw [vrtcCurtime, if_pos (rom_update_enabled regB divider running)]
  show v.baseRtctime + (now - v.baseUptime).tdiv sbt1s = t
  rw [rest, time, Int.add_zero]

theorem holding_moved (holding : Holding kernel now t v) : Holding kernel now t
      { v with baseUptime := (vrtcCurtime now v).2, baseRtctime := (vrtcCurtime now v).1 } := by
  obtain ⟨lower, upper⟩ := rest_of_second (Int.sub_nonneg.mpr holding.elapsed)
  have enabled := rom_update_enabled holding.regB holding.divider holding.running
  have start : (vrtcCurtime now v).2 =
      v.baseUptime + (now - v.baseUptime).tdiv sbt1s * sbt1s := by
    simp only [vrtcCurtime, enabled, ↓reduceIte]
  apply @holding_set kernel now t { v with
    baseUptime := (vrtcCurtime now v).2, baseRtctime := (vrtcCurtime now v).1 } holding.regB
    holding.divider holding.current
  · show (vrtcCurtime now v).2 ≤ now
    omega
  · show now - (vrtcCurtime now v).2 < sbt1s
    omega
  · exact holding.positive
  · exact holding.year

theorem holding_bytes (holding : Holding kernel now t v) (rtc : Mem) (addr : Nat)
    (regA : rtc rtcRegA = v.rtcdev rtcRegA) (regB : rtc rtcRegB = v.rtcdev rtcRegB) :
    Holding kernel now t { v with rtcdev := rtc, addr := addr } := by
  have divider : dividerEnabled (rtc rtcRegA) = true := by
    rw [regA]
    exact holding.divider
  have rom : rtc rtcRegB = 0x0a := regB.trans holding.regB
  refine ⟨rom, divider, holding.running, holding.elapsed, ?_, holding.positive, holding.year⟩
  have enabled := rom_update_enabled holding.regB holding.divider holding.running
  have time := holding.current
  rw [vrtcCurtime, if_pos enabled] at time
  rw [vrtcCurtime, if_pos]
  · exact time
  · exact @rom_update_enabled { v with rtcdev := rtc, addr := addr } rom divider holding.running

theorem refresh_holding {kernel : Kernel} (lawful : LawfulClock kernel) {now t : Int} {v : Vrtc}
    (holding : Holding kernel now t v) {offset : Nat} (field : isTimeOffset offset = true) :
    ∃ w, vrtcRefresh kernel now v offset = .ok w ∧ Holding kernel now t w ∧
      w.rtcdev = stamped v.rtcdev (kernel.clockTsToCt t) := by
  have moved := holding_moved holding
  have known : (vrtcCurtime now v).1 ≠ brokenTime := moved.running
  have updated := time_update_moves kernel v known (vrtcCurtime now v).2 (rom_reg_b_off holding.regB)
  have stamp := secs_to_rtc_stamps lawful holding.positive holding.year
    { v with baseUptime := (vrtcCurtime now v).2, baseRtctime := (vrtcCurtime now v).1 }
    (Or.inr holding.regB)
  obtain ⟨regA, regB⟩ := stamped_regs v.rtcdev (kernel.clockTsToCt t)
  refine ⟨_, ?_, holding_bytes moved (stamped v.rtcdev (kernel.clockTsToCt t)) v.addr regA regB, rfl⟩
  refine (bind_ok updated).trans ?_
  simp only [field, ↓reduceIte]
  exact (congrArg (fun time => secsToRtc kernel time _ false) holding.current).trans stamp

structure Broken (v : Vrtc) : Prop where
  regB : v.regB = 0x0a
  time : v.baseRtctime = brokenTime

theorem refresh_broken {kernel : Kernel} {now : Int} {v : Vrtc} (broken : Broken v) (offset : Nat) :
    vrtcRefresh kernel now v offset = .ok v := by
  have idle : updateEnabled v = false := by simp [updateEnabled, broken.time]
  have current : vrtcCurtime now v = (brokenTime, v.baseUptime) := by
    simp only [vrtcCurtime, idle, Bool.false_eq_true, ↓reduceIte, broken.time]
  have same : { v with baseUptime := v.baseUptime, baseRtctime := brokenTime } = v := by
    rw [← broken.time]
  have updated := time_update_breaks kernel v v.baseUptime
  rw [same] at updated
  unfold vrtcRefresh
  simp only [current]
  refine (bind_ok updated).trans ?_
  split <;> rfl

theorem in_range_some {lo hi n : Nat} (lower : lo ≤ n) (upper : n ≤ hi) :
    inRange lo hi (some n) = some n := by
  simp [inRange, lower, upper]

theorem rtcget_bcd (n : Nat) (small : n < 100) : rtcget 0x0a (bin2bcd n) = some n := by
  interval_cases n <;> rfl

theorem clocktime_of_century (valid : validClocktime ct = true) (regB : rtc rtcRegB = 0x0a)
    (byte : BitVec 8) : rtcClocktime (write8 (stamped rtc ct) rtcCentury byte) =
      (rtcget 0x0a byte).bind fun c =>
        if c * 100 + ct.year % 100 < posixBaseYear then none
        else some { ct with year := c * 100 + ct.year % 100, dow := -1 } := by
  have ranges := of_decide_eq_true valid
  have rom : write8 (stamped rtc ct) rtcCentury byte rtcRegB = 0x0a := regB
  have sec : write8 (stamped rtc ct) rtcCentury byte rtcSec = bin2bcd ct.sec := rfl
  have min : write8 (stamped rtc ct) rtcCentury byte rtcMin = bin2bcd ct.min := rfl
  have hour : write8 (stamped rtc ct) rtcCentury byte rtcHour = bin2bcd ct.hour := rfl
  have day : write8 (stamped rtc ct) rtcCentury byte rtcDayOfMonth = bin2bcd ct.day := rfl
  have mon : write8 (stamped rtc ct) rtcCentury byte rtcMonth = bin2bcd ct.mon := rfl
  have year : write8 (stamped rtc ct) rtcCentury byte rtcYear = bin2bcd (ct.year % 100) := rfl
  have century : write8 (stamped rtc ct) rtcCentury byte rtcCentury = byte := rfl
  have wide : ∀ val, rtcgetHour 0x0a val = rtcget 0x0a val := fun _ => rfl
  unfold rtcClocktime
  simp only [rom, sec, min, hour, day, mon, year, century, wide]
  rw [rtcget_bcd ct.sec (by omega), in_range_some (by omega) (by omega),
    rtcget_bcd ct.min (by omega), in_range_some (by omega) (by omega),
    rtcget_bcd ct.hour (by omega), in_range_some (by omega) (by omega),
    rtcget_bcd ct.day (by omega), in_range_some (by omega) (by omega),
    rtcget_bcd ct.mon (by omega), in_range_some (by omega) (by omega),
    rtcget_bcd (ct.year % 100) (by omega), in_range_some (by omega) (by omega)]
  rfl

theorem rtcget_inverse : ∀ byte : BitVec 8,
    (rtcget 0x0a byte).all (fun c => decide (c < 100 ∧ bin2bcd c = byte)) = true := by
  decide

/-- The device takes the century's binary value as a BCD byte, and the date held, moved to
    that century, exists. -/
def CenturyTaken (kernel : Kernel) (ct : Clocktime) (century : Nat) : Prop :=
  ∃ c t, rtcget 0x0a (BitVec.ofNat 8 century) = some c ∧ posixBaseYear ≤ c * 100 + ct.year % 100 ∧
    kernel.clockCtToTs { ct with year := c * 100 + ct.year % 100, dow := -1 } = some t ∧ 0 ≤ t

theorem century_taken_secs (lawful : LawfulClock kernel) (valid : validClocktime ct = true)
    {century : Nat}
    (bytes : v.rtcdev = write8 (stamped rtc ct) rtcCentury (BitVec.ofNat 8 century))
    (regB : rtc rtcRegB = 0x0a) (taken : CenturyTaken kernel ct century) :
    ∃ c, bin2bcd c = BitVec.ofNat 8 century ∧ c < 100 ∧ 0 ≤ rtcToSecs kernel v ∧
      kernel.clockTsToCt (rtcToSecs kernel v) = { ct with
        year := c * 100 + ct.year % 100
        dow := (kernel.clockTsToCt (rtcToSecs kernel v)).dow } := by
  obtain ⟨c, t, get, base, dated, positive⟩ := taken
  have inverse := rtcget_inverse (BitVec.ofNat 8 century)
  rw [get] at inverse
  obtain ⟨small, byte⟩ : c < 100 ∧ bin2bcd c = BitVec.ofNat 8 century := of_decide_eq_true inverse
  have date := clocktime_of_century valid regB (BitVec.ofNat 8 century)
  rw [← bytes, get] at date
  simp only [Option.bind_some, Nat.not_lt.mpr base, ↓reduceIte] at date
  have secs : rtcToSecs kernel v = t := by
    simp only [rtcToSecs, date, dated, Int.not_lt.mpr positive, ↓reduceIte]
  refine ⟨c, byte, small, ?_, ?_⟩
  · rw [secs]
    exact positive
  · rw [secs]
    exact lawful.inverse _ t base dated positive

theorem century_refused_secs (valid : validClocktime ct = true) {century : Nat}
    (bytes : v.rtcdev = write8 (stamped rtc ct) rtcCentury (BitVec.ofNat 8 century))
    (regB : rtc rtcRegB = 0x0a) (refused : ¬ CenturyTaken kernel ct century) :
    rtcToSecs kernel v = brokenTime := by
  have date := clocktime_of_century valid regB (BitVec.ofNat 8 century)
  rw [← bytes] at date
  unfold rtcToSecs
  cases get : rtcget 0x0a (BitVec.ofNat 8 century) with
  | none =>
    rw [date, get]
    rfl
  | some c =>
    rw [date, get]
    by_cases base : c * 100 + ct.year % 100 < posixBaseYear
    · simp only [Option.bind_some, base, ↓reduceIte]
    · simp only [Option.bind_some, base, ↓reduceIte]
      cases secs : kernel.clockCtToTs { ct with year := c * 100 + ct.year % 100, dow := -1 } with
      | none => rfl
      | some t =>
        by_cases negative : t < 0
        · simp only [negative, ↓reduceIte]
        · exact absurd ⟨c, t, get, Nat.not_lt.mp base, secs, Int.not_lt.mp negative⟩ refused

theorem century_written_of {after : Vrtc}
    (updated : vrtcTimeUpdate kernel v (rtcToSecs kernel v) now = .ok (after, 0)) :
    centuryWritten kernel now v =
      .ok (after, if rtcToSecs kernel v = brokenTime ∧ kernel.flagBrokenTime then -1 else 0) := by
  have asserted : assertTimeUpdate kernel v (rtcToSecs kernel v) now = .ok after := by
    exact bind_ok updated
  exact bind_ok asserted

end Rtc
