import Bhyve.Rtc.Fields

namespace Rtc
open ByteMemory Fallible

variable (kernel : Kernel)

def timeUpdateWith (turns : Nat) (v : Vrtc) (newtime newbase : Int) : Except Fault (Vrtc × Int) :=
  let alarms := (v.rtcdev rtcAlarmSec, v.rtcdev rtcAlarmMin, v.rtcdev rtcAlarmHour)
  let oldtime := v.baseRtctime
  let v := { v with baseUptime := newbase }
  if newtime = oldtime then .ok (v, 0)
  else if newtime = brokenTime then .ok ({ v with baseRtctime := brokenTime }, 0)
  else if rtcHalted v then .ok (v, ebusy)
  else do
    let v ← timeUpdateLoop kernel alarms oldtime newtime turns v
    .ok (if uintrEnabled v then vrtcSetRegC v (v.regC ||| rtcirUpdate) else v, 0)

variable (v : Vrtc)

/-- The loop ends, and a return of 0 leaves the new time in base_rtctime. -/
def Completes (newtime newbase : Int) : Prop :=
  ∃ turns w error, timeUpdateWith kernel turns v newtime newbase = .ok (w, error) ∧
    (error = 0 → w.baseRtctime = newtime)

def Stampable (t : Int) : Prop :=
  t = brokenTime ∨ (0 ≤ t ∧ (kernel.clockTsToCt t).year < 10000)

def Scanned (newtime : Int) : Prop :=
  newtime ≠ v.baseRtctime ∧ newtime ≠ brokenTime ∧ rtcHalted v = false ∧ aintrEnabled v = true

def Forward (newtime : Int) : Prop :=
  v.baseRtctime = brokenTime ∨ v.baseRtctime ≤ newtime

def Visits (newtime t : Int) : Prop :=
  if v.baseRtctime = brokenTime then t = newtime else v.baseRtctime < t ∧ t ≤ newtime

def Dated (newtime : Int) : Prop :=
  ∀ t, Visits v newtime t → Stampable kernel t

/-- A time that the alarm has to look at is not earlier than the old one, and the times on the way
    are stored. -/
def ScanEnds (newtime : Int) : Prop :=
  Scanned v newtime → Forward v newtime ∧ Dated kernel v newtime

structure SameTime (v w : Vrtc) : Prop where
  regB : w.regB = v.regB
  time : w.baseRtctime = v.baseRtctime
  base : w.baseUptime = v.baseUptime

theorem same_time_refl : SameTime v v := ⟨rfl, rfl, rfl⟩

theorem same_time_trans {u v w : Vrtc} (first : SameTime u v) (second : SameTime v w) :
    SameTime u w :=
  ⟨second.regB.trans first.regB, second.time.trans first.time, second.base.trans first.base⟩

theorem store_same {v : Vrtc} {offset : Nat} (other : offset ≠ rtcRegB) (val : BitVec 8) :
    SameTime v (v.store offset val) :=
  ⟨write8_other _ _ other.symm, rfl, rfl⟩

theorem set_reg_c_same (newval : BitVec 8) : SameTime v (vrtcSetRegC v newval) := by
  unfold vrtcSetRegC
  dsimp only
  split
  · exact ⟨rfl, rfl, rfl⟩
  · exact ⟨rfl, rfl, rfl⟩

theorem rtcset_small {regB stored : BitVec 8} {n : Nat} (set_ : rtcset regB n = .ok stored) :
    n < 100 := by
  unfold rtcset at set_
  split at set_
  · cases set_
  · next small => exact Nat.not_le.mp small

section
variable {kernel : Kernel} {t : Int} {v w : Vrtc} {force : Bool}
  (stored : secsToRtc kernel t v force = .ok w)
include stored

theorem secs_to_rtc_cases : (w = v ∧ (t = brokenTime ∨ (rtcHalted v && !force) = true)) ∨
    (0 ≤ t ∧ (kernel.clockTsToCt t).year < 10000 ∧
      ∃ sec min hour dow day mon year century : BitVec 8,
        w = { v with rtcdev := stampFields v.rtcdev sec min hour dow day mon year century }) := by
  unfold secsToRtc at stored
  split at stored
  · split at stored
    · next broken =>
      cases stored
      exact .inl ⟨rfl, .inl broken⟩
    · cases stored
  · next positive =>
    split at stored
    · next held =>
      cases stored
      exact .inl ⟨rfl, .inr held⟩
    · dsimp only at stored
      split at stored
      · obtain ⟨sec, -, stored⟩ := bind_ok_split stored
        obtain ⟨min, -, stored⟩ := bind_ok_split stored
        obtain ⟨hour, -, stored⟩ := bind_ok_split stored
        obtain ⟨dow, -, stored⟩ := bind_ok_split stored
        obtain ⟨day, -, stored⟩ := bind_ok_split stored
        obtain ⟨mon, -, stored⟩ := bind_ok_split stored
        obtain ⟨year, -, stored⟩ := bind_ok_split stored
        obtain ⟨century, digits, stored⟩ := bind_ok_split stored
        have small := rtcset_small digits
        cases stored
        exact .inr ⟨Int.not_lt.mp positive, by omega, _, _, _, _, _, _, _, _, rfl⟩
      · cases stored

theorem secs_to_rtc_same : SameTime v w := by
  obtain ⟨rfl, -⟩ | ⟨-, -, _, _, _, _, _, _, _, _, rfl⟩ := secs_to_rtc_cases stored
  · exact same_time_refl w
  · exact ⟨rfl, rfl, rfl⟩

end

theorem secs_to_rtc_iff {kernel : Kernel}
    (valid : ∀ t, 0 ≤ t → validClocktime (kernel.clockTsToCt t) = true) (t : Int) {v : Vrtc}
    (running : rtcHalted v = false) :
    (∃ w, secsToRtc kernel t v false = .ok w) ↔ Stampable kernel t := by
  have stores : (rtcHalted v && !false) = false := by rw [running, Bool.false_and]
  constructor
  · rintro ⟨w, stored⟩
    obtain ⟨-, broken | held⟩ | ⟨positive, year, -⟩ := secs_to_rtc_cases stored
    · exact .inl broken
    · exact absurd (held.symm.trans stores) (by decide)
    · exact .inr ⟨positive, year⟩
  · rintro (rfl | ⟨positive, year⟩)
    · exact ⟨v, rfl⟩
    · obtain ⟨w, stored, -⟩ := secs_to_rtc_stores positive (valid t positive) year v stores
      exact ⟨w, stored⟩

section
variable {kernel : Kernel} {alarms : BitVec 8 × BitVec 8 × BitVec 8} {oldtime newtime : Int}
  {v w : Vrtc}

def moved (oldtime newtime : Int) (v : Vrtc) : Vrtc :=
  { v with
    baseRtctime :=
      if aintrEnabled v && decide (oldtime ≠ brokenTime) then v.baseRtctime + 1 else newtime }

theorem moved_on (known : oldtime ≠ brokenTime) (alarm : aintrEnabled v = true) :
    (moved oldtime newtime v).baseRtctime = v.baseRtctime + 1 := by
  unfold moved
  rw [alarm, decide_eq_true known]
  rfl

theorem moved_to (jumps : aintrEnabled v = false ∨ oldtime = brokenTime) :
    (moved oldtime newtime v).baseRtctime = newtime := by
  unfold moved
  obtain off | rfl := jumps
  · rw [off]
    rfl
  · rw [decide_eq_false (fun never => never rfl), Bool.and_false]
    rfl

theorem turn_eq (v : Vrtc) : timeUpdateTurn kernel alarms oldtime newtime v =
    if aintrEnabled v then do
      let v ← secsToRtc kernel (moved oldtime newtime v).baseRtctime (moved oldtime newtime v) false
      if alarmMatches alarms.1 (v.rtcdev rtcSec) && alarmMatches alarms.2.1 (v.rtcdev rtcMin) &&
          alarmMatches alarms.2.2 (v.rtcdev rtcHour) then
        .ok (vrtcSetRegC v (v.regC ||| rtcirAlarm))
      else .ok v
    else .ok (moved oldtime newtime v) := rfl

theorem turn_same (turned : timeUpdateTurn kernel alarms oldtime newtime v = .ok w) :
    SameTime (moved oldtime newtime v) w := by
  rw [turn_eq] at turned
  split at turned
  · obtain ⟨stored, written, turned⟩ := bind_ok_split turned
    have same := secs_to_rtc_same written
    split at turned
    · cases turned
      exact same_time_trans same (set_reg_c_same _ _)
    · cases turned
      exact same
  · cases turned
    exact same_time_refl _

theorem turn_iff (valid : ∀ t, 0 ≤ t → validClocktime (kernel.clockTsToCt t) = true)
    (running : rtcHalted v = false) :
    (∃ w, timeUpdateTurn kernel alarms oldtime newtime v = .ok w) ↔
      (aintrEnabled v = true → Stampable kernel (moved oldtime newtime v).baseRtctime) := by
  have stores := @secs_to_rtc_iff kernel valid (moved oldtime newtime v).baseRtctime
    (moved oldtime newtime v) running
  rw [turn_eq]
  cases alarm : aintrEnabled v with
  | false => exact ⟨fun _ never => absurd never Bool.false_ne_true, fun _ => ⟨_, rfl⟩⟩
  | true =>
    rw [if_pos rfl, ← stores]
    constructor
    · rintro ⟨w, turned⟩ -
      obtain ⟨stored, written, -⟩ := bind_ok_split turned
      exact ⟨stored, written⟩
    · intro written
      obtain ⟨stored, written⟩ := written rfl
      rw [bind_ok written]
      split
      · exact ⟨_, rfl⟩
      · exact ⟨_, rfl⟩

theorem loop_turn {turns : Nat} (turned : timeUpdateTurn kernel alarms oldtime newtime v = .ok w) :
    timeUpdateLoop kernel alarms oldtime newtime (turns + 1) v =
      if w.baseRtctime = newtime then .ok w
      else timeUpdateLoop kernel alarms oldtime newtime turns w := by
  rw [timeUpdateLoop, bind_ok turned]

theorem loop_same (turns : Nat) : ∀ v, timeUpdateLoop kernel alarms oldtime newtime turns v = .ok w →
    w.regB = v.regB ∧ w.baseRtctime = newtime ∧ w.baseUptime = v.baseUptime := by
  induction turns with
  | zero =>
    intro v ran
    cases ran
  | succ turns ih =>
    intro v ran
    obtain ⟨next, turned, ran⟩ := bind_ok_split ran
    have same := turn_same turned
    split at ran
    · next reached =>
      cases ran
      exact ⟨same.regB, reached, same.base⟩
    · obtain ⟨regB, reached, base⟩ := ih next ran
      exact ⟨regB.trans same.regB, reached, base.trans same.base⟩

theorem same_flags (regB : w.regB = v.regB) :
    rtcHalted w = rtcHalted v ∧ aintrEnabled w = aintrEnabled v := by
  unfold rtcHalted aintrEnabled
  rw [regB]
  exact ⟨rfl, rfl⟩

variable (valid : ∀ t, 0 ≤ t → validClocktime (kernel.clockTsToCt t) = true)
include valid

theorem scan_ends (known : oldtime ≠ brokenTime) (left : Nat) :
    ∀ v, rtcHalted v = false → aintrEnabled v = true → v.baseRtctime + (left + 1) = newtime →
      (∀ t, v.baseRtctime < t → t ≤ newtime → Stampable kernel t) → ∀ turns, left < turns →
        ∃ w, timeUpdateLoop kernel alarms oldtime newtime turns v = .ok w := by
  induction left with
  | zero =>
    intro v running alarm last dated turns enough
    obtain ⟨turns, rfl⟩ := Nat.exists_eq_succ_of_ne_zero (Nat.ne_of_gt enough)
    have step := @moved_on oldtime newtime v known alarm
    obtain ⟨next, turned⟩ := (@turn_iff kernel alarms oldtime newtime v valid running).mpr fun _ =>
      dated _ (by omega) (by omega)
    have time := (turn_same turned).time
    exact ⟨next, (loop_turn turned).trans (if_pos (by omega))⟩
  | succ left ih =>
    intro v running alarm more dated turns enough
    obtain ⟨turns, rfl⟩ := Nat.exists_eq_succ_of_ne_zero (Nat.ne_of_gt (Nat.lt_of_le_of_lt
      (Nat.zero_le _) enough))
    have step := @moved_on oldtime newtime v known alarm
    obtain ⟨next, turned⟩ := (@turn_iff kernel alarms oldtime newtime v valid running).mpr fun _ =>
      dated _ (by omega) (by omega)
    have same := turn_same turned
    have time := same.time
    obtain ⟨halt, enabled⟩ := same_flags same.regB
    obtain ⟨w, ran⟩ := ih next (halt.trans running) (enabled.trans alarm) (by omega)
      (fun t later early => dated t (by omega) early) turns (by omega)
    exact ⟨w, (loop_turn turned).trans ((if_neg (by omega)).trans ran)⟩

theorem scan_ended (known : oldtime ≠ brokenTime) (turns : Nat) :
    ∀ v, rtcHalted v = false → aintrEnabled v = true →
      timeUpdateLoop kernel alarms oldtime newtime turns v = .ok w →
        v.baseRtctime < newtime ∧ ∀ t, v.baseRtctime < t → t ≤ newtime → Stampable kernel t := by
  induction turns with
  | zero =>
    intro v _ _ ran
    cases ran
  | succ turns ih =>
    intro v running alarm ran
    obtain ⟨next, turned, ran⟩ := bind_ok_split ran
    have step := @moved_on oldtime newtime v known alarm
    have stored := (@turn_iff kernel alarms oldtime newtime v valid running).mp ⟨next, turned⟩ alarm
    rw [step] at stored
    have same := turn_same turned
    have time := same.time
    split at ran
    · next reached =>
      refine ⟨by omega, fun t later early => ?_⟩
      have only : t = v.baseRtctime + 1 := by omega
      rw [only]
      exact stored
    · obtain ⟨halt, enabled⟩ := same_flags same.regB
      obtain ⟨later, dated⟩ := ih next (halt.trans running) (enabled.trans alarm) ran
      refine ⟨by omega, fun t after early => ?_⟩
      by_cases first : t = v.baseRtctime + 1
      · rw [first]
        exact stored
      · exact dated t (by omega) early

theorem jump_iff (running : rtcHalted v = false)
    (jumps : aintrEnabled v = false ∨ oldtime = brokenTime) (turns : Nat) :
    (∃ w, timeUpdateLoop kernel alarms oldtime newtime (turns + 1) v = .ok w) ↔
      (aintrEnabled v = true → Stampable kernel newtime) := by
  have turn := @turn_iff kernel alarms oldtime newtime v valid running
  rw [moved_to jumps] at turn
  rw [← turn]
  constructor
  · rintro ⟨w, ran⟩
    obtain ⟨next, turned, -⟩ := bind_ok_split ran
    exact ⟨next, turned⟩
  · rintro ⟨next, turned⟩
    have time := (turn_same turned).time
    exact ⟨next, (loop_turn turned).trans (if_pos (time.trans (moved_to jumps)))⟩

end

section
variable {kernel : Kernel} {v w : Vrtc} {newtime newbase error : Int} {turns : Nat}

theorem time_update_turns (kernel : Kernel) (v : Vrtc) (newtime newbase : Int) :
    vrtcTimeUpdate kernel v newtime newbase =
      timeUpdateWith kernel ((newtime - v.baseRtctime).toNat + 1) v newtime newbase := rfl

theorem time_update_same (ran : timeUpdateWith kernel turns v newtime newbase = .ok (w, error)) :
    w.regB = v.regB ∧ w.baseUptime = newbase ∧
      ((error = 0 ∧ w.baseRtctime = newtime ∧
          (rtcHalted v = true → newtime = v.baseRtctime ∨ newtime = brokenTime)) ∨
        (error = ebusy ∧ w.baseRtctime = v.baseRtctime ∧ rtcHalted v = true ∧
          newtime ≠ v.baseRtctime)) := by
  unfold timeUpdateWith at ran
  dsimp only at ran
  split at ran
  · next same =>
    cases ran
    exact ⟨rfl, rfl, .inl ⟨rfl, same.symm, fun _ => .inl same⟩⟩
  · next change =>
    split at ran
    · next broken =>
      cases ran
      exact ⟨rfl, rfl, .inl ⟨rfl, broken.symm, fun _ => .inr broken⟩⟩
    · split at ran
      · next halted =>
        cases ran
        exact ⟨rfl, rfl, .inr ⟨rfl, rfl, halted, change⟩⟩
      · next running =>
        have held : rtcHalted v = true → newtime = v.baseRtctime ∨ newtime = brokenTime :=
          fun halted => absurd halted running
        obtain ⟨next, looped, ran⟩ := bind_ok_split ran
        obtain ⟨regB, reached, base⟩ := loop_same turns _ looped
        cases ran
        split
        · have same := set_reg_c_same next (next.regC ||| rtcirUpdate)
          exact ⟨same.regB.trans regB, same.base.trans base,
            .inl ⟨rfl, same.time.trans reached, held⟩⟩
        · exact ⟨regB, base, .inl ⟨rfl, reached, held⟩⟩

theorem settled_update (still : newtime = v.baseRtctime ∨ newtime = brokenTime ∨ rtcHalted v = true)
    (turns : Nat) : ∃ w error, timeUpdateWith kernel turns v newtime newbase = .ok (w, error) := by
  unfold timeUpdateWith
  dsimp only
  split
  · exact ⟨_, _, rfl⟩
  · next change =>
    split
    · exact ⟨_, _, rfl⟩
    · next known =>
      have halted := (still.resolve_left change).resolve_left known
      exact ⟨_, _, if_pos halted⟩

def based (v : Vrtc) (newbase : Int) : Vrtc := { v with baseUptime := newbase }

theorem based_flags (v : Vrtc) (newbase : Int) : rtcHalted (based v newbase) = rtcHalted v ∧
    aintrEnabled (based v newbase) = aintrEnabled v :=
  @same_flags v (based v newbase) rfl

theorem loop_update (change : newtime ≠ v.baseRtctime) (known : newtime ≠ brokenTime)
    (running : rtcHalted v = false) :
    (∃ w error, timeUpdateWith kernel turns v newtime newbase = .ok (w, error)) ↔
      ∃ w, timeUpdateLoop kernel
        (v.rtcdev rtcAlarmSec, v.rtcdev rtcAlarmMin, v.rtcdev rtcAlarmHour) v.baseRtctime newtime turns
        (based v newbase) = .ok w := by
  have free : ¬ rtcHalted (based v newbase) = true := by
    rw [(based_flags v newbase).1, running]
    exact Bool.false_ne_true
  unfold timeUpdateWith
  rw [if_neg change, if_neg known, ← based, if_neg free]
  constructor
  · rintro ⟨w, error, ran⟩
    obtain ⟨next, looped, -⟩ := bind_ok_split ran
    exact ⟨next, looped⟩
  · rintro ⟨next, looped⟩
    exact ⟨_, _, bind_ok looped⟩

variable (valid : ∀ t, 0 ≤ t → validClocktime (kernel.clockTsToCt t) = true)
include valid

theorem scan_returns (ends : ScanEnds kernel v newtime) :
    ∃ w error, vrtcTimeUpdate kernel v newtime newbase = .ok (w, error) := by
  rw [time_update_turns]
  by_cases still : newtime = v.baseRtctime ∨ newtime = brokenTime ∨ rtcHalted v = true
  · exact settled_update still _
  · obtain ⟨change, known, halted⟩ : newtime ≠ v.baseRtctime ∧ newtime ≠ brokenTime ∧
        ¬ rtcHalted v = true := ⟨fun h => still (.inl h), fun h => still (.inr (.inl h)),
          fun h => still (.inr (.inr h))⟩
    have running : rtcHalted v = false := (Bool.not_eq_true _).mp halted
    obtain ⟨halt, enabled⟩ := based_flags v newbase
    rw [loop_update change known running]
    by_cases old : v.baseRtctime = brokenTime
    · apply (jump_iff valid (halt.trans running) (.inr old) _).mpr
      intro alarm
      obtain ⟨-, dated⟩ := ends ⟨change, known, running, alarm⟩
      exact dated newtime (by rw [Visits, if_pos old])
    · cases alarm : aintrEnabled v with
      | false =>
        apply (jump_iff valid (halt.trans running) (.inl (enabled.trans alarm)) _).mpr
        intro on
        exact absurd (alarm.symm.trans (enabled.symm.trans on)) Bool.false_ne_true
      | true =>
        obtain ⟨forward, dated⟩ := ends ⟨change, known, running, alarm⟩
        have later := forward.resolve_left old
        have start : (based v newbase).baseRtctime = v.baseRtctime := rfl
        apply scan_ends valid old (newtime - v.baseRtctime - 1).toNat _ (halt.trans running)
          (enabled.trans alarm)
        · omega
        · intro t after early
          exact dated t (by rw [Visits, if_neg old]; exact ⟨after, early⟩)
        · omega

theorem returns_scan (ran : timeUpdateWith kernel turns v newtime newbase = .ok (w, error)) :
    ScanEnds kernel v newtime := by
  rintro ⟨change, known, running, alarm⟩
  obtain ⟨next, looped⟩ := (loop_update change known running).mp ⟨w, error, ran⟩
  obtain ⟨halt, enabled⟩ := based_flags v newbase
  unfold Forward Dated Visits
  by_cases old : v.baseRtctime = brokenTime
  · refine ⟨.inl old, fun t only => ?_⟩
    rw [if_pos old] at only
    rw [only]
    cases turns with
    | zero => cases looped
    | succ turns =>
      apply (jump_iff valid (halt.trans running) (.inr old) turns).mp ⟨next, looped⟩
      exact enabled.trans alarm
  · obtain ⟨later, dated⟩ :=
      scan_ended valid old turns _ (halt.trans running) (enabled.trans alarm) looped
    refine ⟨.inr (Int.le_of_lt later), fun t between => ?_⟩
    rw [if_neg old] at between
    exact dated t between.1 between.2

theorem completes_iff : Completes kernel v newtime newbase ↔ ScanEnds kernel v newtime := by
  constructor
  · rintro ⟨turns, w, error, ran, -⟩
    exact returns_scan valid ran
  · intro ends
    obtain ⟨w, error, ran⟩ := @scan_returns kernel v newtime newbase valid ends
    refine ⟨_, w, error, ran, fun zero => ?_⟩
    obtain ⟨-, -, ⟨-, reached, -⟩ | ⟨busy, -⟩⟩ := time_update_same ran
    · exact reached
    · exact absurd (zero.symm.trans busy) (by decide)

end

end Rtc
