import Bhyve.Rtc.AlarmScan

/-!
The callout of the RTC and the frequency that vrtc_freq asks for.
-/
namespace Rtc
open ByteMemory Fallible StepRuns

def Timed (v : Vrtc) : Prop := v.callout.active = decide (vrtcFreq v ≠ 0)

/-- The callout runs for the alarm or the update interrupt, as long as the time is known. -/
def Ticking (v : Vrtc) : Prop :=
  dividerEnabled v.regA = true ∧ rtcHalted v = false ∧ pintrEnabled v = false ∧
    (aintrEnabled v || uintrEnabled v) = true

/-- The update does not make the time broken, nor known again. After one that clears HALT the
    callout is looked at. -/
def KeepsTimer (u : TimeUpdate) : Prop :=
  u.caller ≠ .clearHalt → Ticking u.vrtc →
    (u.newtime = brokenTime ↔ u.vrtc.baseRtctime = brokenTime)

def refusesClear (kernel : Kernel) (v : Vrtc) (val : BitVec 8) : Prop :=
  hasBits (v.regB ^^^ val) rtcsbHalt = true ∧ hasBits val rtcsbHalt = false ∧
    rtcToSecs kernel (v.store rtcRegB val) = brokenTime ∧ kernel.flagBrokenTime = true

/-- The periodic interrupt is enabled at rate select 0 while the divider runs. -/
def RateOff (v : Vrtc) : Prop :=
  (pintrEnabled v && dividerEnabled v.regA) = true ∧ v.regA &&& 0xf = 0

/-- A write to register A or B that leaves the periodic interrupt enabled at no rate. -/
def StopsRate (v : Vrtc) : Event → Prop
  | .data false 1 val =>
    v.addr = rtcRegA ∧ RateOff (v.store rtcRegA (val &&& ~~~rtcsaTup)) ∨
      v.addr = rtcRegB ∧ RateOff (v.store rtcRegB val)
  | _ => False

/-- The updates of the event keep the timer, a clearing of HALT that is refused does not turn the
    periodic timer on or off, and no write asks for the periodic interrupt at no rate. -/
structure TimerKept (kernel : Kernel) (d : Device) (event : Event) : Prop where
  updates : ∀ u, Updates kernel d.now d.vrtc event u → KeepsTimer u
  refused : ∀ val w, event = .data false 1 val → d.vrtc.addr = rtcRegB →
    vrtcRefresh kernel d.now d.vrtc rtcRegB = .ok w → refusesClear kernel w val →
      (vrtcFreq (w.store rtcRegB val) = 0 ↔ vrtcFreq w = 0)
  rate : ¬ StopsRate d.vrtc event

def regAStored (now : Int) (v : Vrtc) (newval : BitVec 8) : Vrtc :=
  let newval := newval &&& ~~~rtcsaTup
  (if !dividerEnabled v.regA && dividerEnabled newval then { v with baseUptime := now }
    else v).store rtcRegA newval

def enablesChanged (changed : BitVec 8) (v : Vrtc) : Vrtc :=
  if hasBits changed rtcsbAllIntrs then vrtcSetRegC v v.regC else v

def haltChanged (kernel : Kernel) (now : Int) (v : Vrtc) (newval : BitVec 8) :
    Except Fault (Vrtc × Int) :=
  if hasBits (v.regB ^^^ newval) rtcsbHalt then
    regBHaltEdge kernel now (v.store rtcRegB newval) newval
  else .ok (v.store rtcRegB newval, 0)

def resetRegB (v : Vrtc) : BitVec 8 := v.regB &&& ~~~(rtcsbAllIntrs ||| rtcsbSqwe)

/-- What vrtc_callout_check asserts, where a write leaves the frequency at the old one. -/
def CheckedAs (v : Vrtc) (oldfreq : Int) : Prop :=
  vrtcFreq v = oldfreq → v.callout.active = decide (vrtcFreq v ≠ 0)

inductive CalloutCheck (kernel : Kernel) (now : Int) (v : Vrtc) : Event → Prop → Prop where
  | gratuitous : calloutRuns v = true →
      CalloutCheck kernel now v .callout (hasBits v.regB rtcsbAllIntrs = true)
  | updated (w : Vrtc) (error : Int) : calloutRuns v = true →
      vrtcTimeUpdate kernel (calloutBegun v) (vrtcCurtime now (calloutBegun v)).1
        (vrtcCurtime now (calloutBegun v)).2 = .ok (w, error) →
      CalloutCheck kernel now v .callout (error = 0)
  | frequency (w : Vrtc) : calloutRuns v = true →
      calloutUpdated kernel now (calloutBegun v) = .ok w →
      CalloutCheck kernel now v .callout (vrtcFreq w ≠ 0)
  | regA (val : BitVec 8) (w : Vrtc) : v.addr = rtcRegA →
      vrtcRefresh kernel now v rtcRegA = .ok w →
      CalloutCheck kernel now v (.data false 1 val) (CheckedAs (regAStored now w val) (vrtcFreq w))
  | regB (val : BitVec 8) (w u : Vrtc) : v.addr = rtcRegB →
      vrtcRefresh kernel now v rtcRegB = .ok w → haltChanged kernel now w val = .ok (u, 0) →
      CalloutCheck kernel now v (.data false 1 val)
        (CheckedAs (enablesChanged (w.regB ^^^ val) u) (vrtcFreq w))
  | resetRegB (u : Vrtc) : haltChanged kernel now v (resetRegB v) = .ok (u, 0) →
      CalloutCheck kernel now v .reset
        (CheckedAs (enablesChanged (v.regB ^^^ resetRegB v) u) (vrtcFreq v))
  | reset (u : Vrtc) (error : Int) : vrtcSetRegB kernel now v (resetRegB v) = .ok (u, error) →
      CalloutCheck kernel now v .reset ((vrtcSetRegC u 0).callout.active = false)

def Interrupting (v : Vrtc) : Prop :=
  (pintrEnabled v && dividerEnabled v.regA) = true ∨
    ((aintrEnabled v || uintrEnabled v) && updateEnabled v) = true

/-- The callout after an event and the assertions about it on the way; an enabled interrupt has its
    timer. -/
structure CalloutHolds (kernel : Kernel) (d : Device) (event : Event) : Prop where
  checks : ∀ condition, CalloutCheck kernel d.now d.vrtc event condition → condition
  timed : ∀ d', step kernel d event = .ok d' → Timed d'.vrtc
  served : ∀ d', step kernel d event = .ok d' → Interrupting d'.vrtc →
    d'.vrtc.callout.active = true

structure SameTimer (v w : Vrtc) : Prop where
  regA : w.regA = v.regA
  regB : w.regB = v.regB
  callout : w.callout = v.callout

theorem same_timer_refl (v : Vrtc) : SameTimer v v := ⟨rfl, rfl, rfl⟩

theorem same_timer_trans {u v w : Vrtc} (first : SameTimer u v) (second : SameTimer v w) :
    SameTimer u w :=
  ⟨second.regA.trans first.regA, second.regB.trans first.regB, second.callout.trans first.callout⟩

section
variable {v w : Vrtc}

theorem update_enabled_congr (same : SameTimer v w)
    (known : w.baseRtctime = brokenTime ↔ v.baseRtctime = brokenTime) :
    updateEnabled w = updateEnabled v := by
  unfold updateEnabled rtcHalted
  rw [same.regA, same.regB, decide_eq_decide.mpr (not_congr known)]

theorem freq_congr (same : SameTimer v w)
    (known : w.baseRtctime = brokenTime ↔ v.baseRtctime = brokenTime) : vrtcFreq w = vrtcFreq v := by
  unfold vrtcFreq
  rw [update_enabled_congr same known]
  unfold pintrEnabled aintrEnabled uintrEnabled
  rw [same.regA, same.regB]

theorem freq_idle (same : SameTimer v w) (idle : ¬ Ticking v) : vrtcFreq w = vrtcFreq v := by
  have pintr : pintrEnabled w = pintrEnabled v := by
    rw [pintrEnabled, same.regB, ← pintrEnabled]
  have aintr : aintrEnabled w = aintrEnabled v := by
    rw [aintrEnabled, same.regB, ← aintrEnabled]
  have uintr : uintrEnabled w = uintrEnabled v := by
    rw [uintrEnabled, same.regB, ← uintrEnabled]
  have halted : rtcHalted w = rtcHalted v := by
    rw [rtcHalted, same.regB, ← rtcHalted]
  unfold vrtcFreq updateEnabled
  rw [same.regA, pintr, aintr, uintr, halted]
  cases divider : dividerEnabled v.regA with
  | false => simp only [Bool.false_and, Bool.and_false]
  | true =>
    cases periodic : pintrEnabled v with
    | true => rfl
    | false =>
      cases halt : rtcHalted v with
      | true => simp only [Bool.not_true, Bool.and_false, Bool.false_and]
      | false =>
        have quiet : (aintrEnabled v || uintrEnabled v) ≠ true :=
          fun enabled => idle ⟨divider, halt, periodic, enabled⟩
        obtain ⟨silent, still⟩ := (Bool.or_eq_false_iff).mp ((Bool.not_eq_true _).mp quiet)
        rw [silent, still]
        simp only [Bool.false_and]

theorem timed_congr (same : SameTimer v w) (freq : vrtcFreq w = vrtcFreq v) (timed : Timed v) :
    Timed w := by
  unfold Timed
  rw [same.callout, freq]
  exact timed

theorem rate_disabled (off : pintrEnabled v = false) : ¬ RateOff v := by
  rintro ⟨periodic, -⟩
  rw [off, Bool.false_and] at periodic
  exact Bool.false_ne_true periodic

theorem rate_congr (regA : w.regA = v.regA) (periodic : pintrEnabled w = pintrEnabled v)
    (on : ¬ RateOff v) : ¬ RateOff w := by
  unfold RateOff
  rw [regA, periodic]
  exact on

theorem rate_same (same : SameTimer v w) (on : ¬ RateOff v) : ¬ RateOff w :=
  rate_congr same.regA (by rw [pintrEnabled, same.regB, ← pintrEnabled]) on

/-- The callout follows the frequency, and a periodic interrupt has a rate. -/
structure Serving (v : Vrtc) : Prop where
  timed : Timed v
  on : ¬ RateOff v

theorem serving_congr (same : SameTimer v w) (freq : vrtcFreq w = vrtcFreq v) (serving : Serving v) :
    Serving w :=
  ⟨timed_congr same freq serving.timed, rate_same same serving.on⟩

theorem serving_same (same : SameTimer v w) (time : w.baseRtctime = v.baseRtctime)
    (serving : Serving v) : Serving w :=
  serving_congr same (freq_congr same (by rw [time])) serving

theorem freq_zero_iff (interrupting : Interrupting v) : vrtcFreq v = 0 ↔ RateOff v := by
  have rates : ∀ a : BitVec 8, periodicFreq.getD (a &&& 0xf).toNat 0 = 0 ↔ a &&& 0xf = 0 := by
    decide
  have second : sbt1s ≠ 0 := by decide
  unfold vrtcFreq RateOff
  cases periodic : pintrEnabled v && dividerEnabled v.regA with
  | true =>
    rw [if_pos rfl, rates]
    exact ⟨fun off => ⟨rfl, off⟩, fun both => both.2⟩
  | false =>
    rw [if_neg Bool.false_ne_true]
    obtain never | ticks := interrupting
    · exact absurd (periodic.symm.trans never) Bool.false_ne_true
    · obtain ⟨enabled, known⟩ := (Bool.and_eq_true_iff).mp ticks
      refine ⟨fun zero => ?_, fun never => absurd never.1 Bool.false_ne_true⟩
      rw [known, Bool.and_true, Bool.and_true] at zero
      split at zero
      · exact absurd zero second
      · next silent =>
        rw [if_pos] at zero
        · exact absurd zero second
        · exact ((Bool.or_eq_true _ _).mp enabled).resolve_left silent

theorem serving_active (serving : Serving v) (interrupting : Interrupting v) :
    v.callout.active = true := by
  rw [serving.timed, decide_eq_true_eq]
  exact fun zero => serving.on ((freq_zero_iff interrupting).mp zero)

end

section
variable {kernel : Kernel} {now : Int} {v w : Vrtc}

variable {offset : Nat} {newtime newbase error : Int} {newval : BitVec 8}

theorem store_timer (notA : offset ≠ rtcRegA) (notB : offset ≠ rtcRegB) (val : BitVec 8) :
    SameTimer v (v.store offset val) :=
  ⟨write8_other _ _ notA.symm, write8_other _ _ notB.symm, rfl⟩

theorem set_reg_c_timer (v : Vrtc) (newval : BitVec 8) : SameTimer v (vrtcSetRegC v newval) := by
  unfold vrtcSetRegC
  dsimp only
  split
  · exact ⟨rfl, rfl, rfl⟩
  · exact ⟨rfl, rfl, rfl⟩

theorem secs_to_rtc_timer {t : Int} {force : Bool} (stored : secsToRtc kernel t v force = .ok w) :
    SameTimer v w := by
  obtain ⟨rfl, -⟩ | ⟨-, -, _, _, _, _, _, _, _, _, rfl⟩ := secs_to_rtc_cases stored
  · exact same_timer_refl w
  · exact ⟨rfl, rfl, rfl⟩

theorem turn_timer {alarms : BitVec 8 × BitVec 8 × BitVec 8} {oldtime : Int}
    (turned : timeUpdateTurn kernel alarms oldtime newtime v = .ok w) : SameTimer v w := by
  have same : SameTimer v (moved oldtime newtime v) := ⟨rfl, rfl, rfl⟩
  rw [turn_eq] at turned
  split at turned
  · obtain ⟨stored, written, turned⟩ := bind_ok_split turned
    have kept := same_timer_trans same (secs_to_rtc_timer written)
    split at turned
    · cases turned
      exact same_timer_trans kept (set_reg_c_timer _ _)
    · cases turned
      exact kept
  · cases turned
    exact same

theorem loop_timer {alarms : BitVec 8 × BitVec 8 × BitVec 8} {oldtime : Int} (turns : Nat) :
    ∀ v, timeUpdateLoop kernel alarms oldtime newtime turns v = .ok w → SameTimer v w := by
  induction turns with
  | zero =>
    intro v ran
    cases ran
  | succ turns ih =>
    intro v ran
    obtain ⟨next, turned, ran⟩ := bind_ok_split ran
    have same := turn_timer turned
    split at ran
    · cases ran
      exact same
    · exact same_timer_trans same (ih next ran)

section
variable (ran : vrtcTimeUpdate kernel v newtime newbase = .ok (w, error))
include ran

theorem time_update_timer : SameTimer v w := by
  unfold vrtcTimeUpdate at ran
  dsimp only at ran
  split at ran
  · cases ran
    exact ⟨rfl, rfl, rfl⟩
  · split at ran
    · cases ran
      exact ⟨rfl, rfl, rfl⟩
    · split at ran
      · cases ran
        exact ⟨rfl, rfl, rfl⟩
      · obtain ⟨next, looped, ran⟩ := bind_ok_split ran
        have same := loop_timer _ _ looped
        have kept : SameTimer v next := ⟨same.regA, same.regB, same.callout⟩
        cases ran
        split
        · exact same_timer_trans kept (set_reg_c_timer _ _)
        · exact kept

theorem time_update_freq (keeps : Ticking v → (newtime = brokenTime ↔ v.baseRtctime = brokenTime)) :
    vrtcFreq w = vrtcFreq v := by
  have same := time_update_timer ran
  by_cases ticking : Ticking v
  · apply freq_congr same
    obtain ⟨-, -, ⟨-, reached, -⟩ | ⟨-, kept, -⟩⟩ := time_update_same ran
    · rw [reached]
      exact keeps ticking
    · rw [kept]
  · exact freq_idle same ticking

theorem time_update_serving
    (keeps : Ticking v → (newtime = brokenTime ↔ v.baseRtctime = brokenTime)) (serving : Serving v) :
    Serving w :=
  serving_congr (time_update_timer ran) (time_update_freq ran keeps) serving

end

theorem callout_adjusted {oldfreq : Int} (agrees : v.callout.active = decide (oldfreq ≠ 0)) :
    CheckedAs v oldfreq ∧ ∀ w, vrtcCalloutAdjust v oldfreq = .ok w → Timed w := by
  refine ⟨fun same => same.symm ▸ agrees, fun w ran => ?_⟩
  unfold vrtcCalloutAdjust at ran
  split at ran
  · cases ran
    have freq : vrtcFreq (vrtcCalloutReset v (vrtcFreq v)) = vrtcFreq v := by
      unfold vrtcCalloutReset
      split
      · split <;> rfl
      · rfl
    unfold Timed
    rw [freq]
    unfold vrtcCalloutReset
    split
    · next zero =>
      rw [decide_eq_false (not_not_intro zero)]
      split
      · rfl
      · next off => exact (Bool.not_eq_true _).mp off
    · next some_ => exact (decide_eq_true some_).symm
  · unfold vrtcCalloutCheck at ran
    split at ran
    · next agrees =>
      cases ran
      exact agrees
    · cases ran

theorem reg_a_stored_callout (now : Int) (v : Vrtc) (newval : BitVec 8) :
    (regAStored now v newval).callout = v.callout := by
  unfold regAStored
  dsimp only
  split <;> rfl

theorem reg_a_adjusted (timed : Timed v) (now : Int) (newval : BitVec 8) :
    CheckedAs (regAStored now v newval) (vrtcFreq v) ∧
      ∀ w, vrtcSetRegA now v newval = .ok w → Timed w := by
  apply callout_adjusted
  rw [reg_a_stored_callout]
  exact timed

theorem halt_edge_callout (ran : regBHaltEdge kernel now v newval = .ok (w, error)) :
    w.callout = v.callout ∧ (error ≠ 0 → w = v ∧ hasBits newval rtcsbHalt = false ∧
      rtcToSecs kernel v = brokenTime ∧ kernel.flagBrokenTime = true) := by
  unfold regBHaltEdge at ran
  split at ran
  · next clear =>
    dsimp only at ran
    split at ran
    · next broken =>
      cases ran
      exact ⟨rfl, fun _ => ⟨rfl, (Bool.not_eq_true' _).mp clear, broken⟩⟩
    · obtain ⟨u, updated, ran⟩ := bind_ok_split ran
      cases ran
      exact ⟨(time_update_timer (assert_update_ran updated)).callout, fun never => absurd rfl never⟩
  · dsimp only at ran
    split at ran
    · cases ran
    · obtain ⟨u, stored, ran⟩ := bind_ok_split ran
      obtain ⟨u', updated, ran⟩ := bind_ok_split ran
      cases ran
      have kept := (time_update_timer (assert_update_ran updated)).callout
      exact ⟨kept.trans (secs_to_rtc_timer stored).callout, fun never => absurd rfl never⟩

theorem halt_changed_callout (ran : haltChanged kernel now v newval = .ok (w, error)) :
    w.callout = v.callout ∧
      (error ≠ 0 → w = v.store rtcRegB newval ∧ refusesClear kernel v newval) := by
  unfold haltChanged at ran
  split at ran
  · next changed =>
    obtain ⟨kept, refused⟩ := halt_edge_callout ran
    exact ⟨kept, fun failed => ⟨(refused failed).1, changed, (refused failed).2⟩⟩
  · cases ran
    exact ⟨rfl, fun never => absurd rfl never⟩

theorem enables_changed_callout (changed : BitVec 8) (v : Vrtc) :
    (enablesChanged changed v).callout = v.callout := by
  unfold enablesChanged
  split
  · exact (set_reg_c_timer v _).callout
  · rfl

theorem set_reg_b_halt (kernel : Kernel) (now : Int) (v : Vrtc) (newval : BitVec 8) :
    vrtcSetRegB kernel now v newval =
      haltChanged kernel now v newval >>= regBEffects (v.regB ^^^ newval) (vrtcFreq v) :=
  set_reg_b_eq kernel now v newval

theorem reg_b_adjusted (timed : Timed v) : (∀ u, haltChanged kernel now v newval = .ok (u, 0) →
      CheckedAs (enablesChanged (v.regB ^^^ newval) u) (vrtcFreq v)) ∧
    ∀ w error, vrtcSetRegB kernel now v newval = .ok (w, error) →
      (refusesClear kernel v newval → (vrtcFreq (v.store rtcRegB newval) = 0 ↔ vrtcFreq v = 0)) →
        Timed w := by
  have agrees (u : Vrtc) (error : Int) (changed : haltChanged kernel now v newval = .ok (u, error)) :
      (enablesChanged (v.regB ^^^ newval) u).callout.active = decide (vrtcFreq v ≠ 0) := by
    rw [enables_changed_callout, (halt_changed_callout changed).1]
    exact timed
  constructor
  · intro u changed
    exact (callout_adjusted (agrees u 0 changed)).1
  · intro w error ran refused
    rw [set_reg_b_halt] at ran
    obtain ⟨⟨u, failed⟩, changed, ran⟩ := bind_ok_split ran
    unfold regBEffects at ran
    split at ran
    · next wrong =>
      cases ran
      obtain ⟨rfl, refuses⟩ := (halt_changed_callout changed).2 wrong
      unfold Timed
      rw [decide_eq_decide.mpr (not_congr (refused refuses))]
      exact timed
    · obtain ⟨u', adjusted, ran⟩ := bind_ok_split ran
      cases ran
      exact (callout_adjusted (agrees u failed changed)).2 _ adjusted

theorem refresh_timer (ran : vrtcRefresh kernel now v offset = .ok w) : SameTimer v w := by
  obtain ⟨⟨u, error⟩, updated, ran⟩ := bind_ok_split ran
  dsimp only at ran
  split at ran
  · exact same_timer_trans (time_update_timer updated) (secs_to_rtc_timer ran)
  · cases ran
    exact time_update_timer updated

theorem refresh_serving (serving : Serving v) (keeps : KeepsTimer (presentUpdate .dataPort now v))
    (ran : vrtcRefresh kernel now v offset = .ok w) : Serving w := by
  obtain ⟨⟨u, error⟩, updated, ran⟩ := bind_ok_split ran
  have after := time_update_serving updated (keeps nofun) serving
  dsimp only at ran
  split at ran
  · exact serving_same (secs_to_rtc_timer ran) (secs_to_rtc_same ran).time after
  · cases ran
    exact after

theorem set_reg_c_serving (serving : Serving v) (newval : BitVec 8) :
    Serving (vrtcSetRegC v newval) :=
  serving_same (set_reg_c_timer v newval) (set_reg_c_same v newval).time serving

theorem callout_reset_registers (v : Vrtc) (freq : Int) :
    (vrtcCalloutReset v freq).rtcdev = v.rtcdev := by
  unfold vrtcCalloutReset
  split
  · split <;> rfl
  · rfl

theorem callout_adjust_registers {oldfreq : Int} (ran : vrtcCalloutAdjust v oldfreq = .ok w) :
    w.rtcdev = v.rtcdev := by
  unfold vrtcCalloutAdjust at ran
  split at ran
  · cases ran
    exact callout_reset_registers v _
  · unfold vrtcCalloutCheck at ran
    split at ran
    · cases ran
      rfl
    · cases ran

theorem rate_registers (same : w.rtcdev = v.rtcdev) (on : ¬ RateOff v) : ¬ RateOff w := by
  unfold RateOff pintrEnabled Vrtc.regA Vrtc.regB
  rw [same]
  exact on

theorem halt_edge_rate (on : ¬ RateOff v)
    (ran : regBHaltEdge kernel now v newval = .ok (w, error)) : ¬ RateOff w := by
  unfold regBHaltEdge at ran
  split at ran
  · dsimp only at ran
    split at ran
    · cases ran
      exact on
    · obtain ⟨u, updated, ran⟩ := bind_ok_split ran
      cases ran
      exact rate_same (time_update_timer (assert_update_ran updated)) on
  · dsimp only at ran
    split at ran
    · cases ran
    · obtain ⟨u, stored, ran⟩ := bind_ok_split ran
      obtain ⟨u', updated, ran⟩ := bind_ok_split ran
      cases ran
      apply rate_same (time_update_timer (assert_update_ran updated))
      -- a halt takes the update interrupt away and leaves the periodic one enabled
      have periodic : ∀ b : BitVec 8, hasBits (b &&& ~~~rtcsbUintr) rtcsbPintr =
        hasBits b rtcsbPintr := by decide
      have before : ¬ RateOff u := rate_same (secs_to_rtc_timer stored) on
      exact @rate_congr u _ rfl (periodic u.regB) before

theorem set_reg_b_rate (on : ¬ RateOff (v.store rtcRegB newval))
    (ran : vrtcSetRegB kernel now v newval = .ok (w, error)) : ¬ RateOff w := by
  rw [set_reg_b_halt] at ran
  obtain ⟨⟨u, failed⟩, changed, ran⟩ := bind_ok_split ran
  have after : ¬ RateOff u := by
    unfold haltChanged at changed
    split at changed
    · exact halt_edge_rate on changed
    · cases changed
      exact on
  unfold regBEffects at ran
  split at ran
  · cases ran
    exact after
  · obtain ⟨u', adjusted, ran⟩ := bind_ok_split ran
    cases ran
    apply rate_registers (callout_adjust_registers adjusted)
    split
    · exact rate_same (set_reg_c_timer u _) after
    · exact after

theorem set_reg_a_rate (on : ¬ RateOff (v.store rtcRegA (newval &&& ~~~rtcsaTup)))
    (ran : vrtcSetRegA now v newval = .ok w) : ¬ RateOff w := by
  apply rate_registers (callout_adjust_registers ran)
  split
  · exact on
  · exact on

theorem present_update_error
    (ran : vrtcTimeUpdate kernel v (vrtcCurtime now v).1 newbase = .ok (w, error)) : error = 0 := by
  obtain ⟨-, -, ⟨zero, -⟩ | ⟨-, -, halted, change⟩⟩ := time_update_same ran
  · exact zero
  · have stopped : ¬ updateEnabled v = true := by
      rw [updateEnabled, halted]
      simp only [Bool.not_true, Bool.and_false, Bool.false_and, Bool.false_eq_true, not_false_eq_true]
    rw [vrtcCurtime, if_neg stopped] at change
    exact absurd rfl change

theorem enabled_of_freq (freq : vrtcFreq v ≠ 0) : hasBits v.regB rtcsbAllIntrs = true := by
  have bits : ∀ regB : BitVec 8, hasBits regB rtcsbAllIntrs = false →
      hasBits regB rtcsbPintr = false ∧ hasBits regB rtcsbAintr = false ∧
        hasBits regB rtcsbUintr = false := by
    decide
  cases enabled : hasBits v.regB rtcsbAllIntrs with
  | true => rfl
  | false =>
    obtain ⟨periodic, silent, still⟩ := bits v.regB enabled
    refine absurd ?_ freq
    unfold vrtcFreq pintrEnabled aintrEnabled uintrEnabled
    rw [periodic, silent, still]
    rfl

theorem callout_begun_timer (v : Vrtc) :
    (calloutBegun v).regA = v.regA ∧ (calloutBegun v).regB = v.regB := by
  unfold calloutBegun
  dsimp only
  split
  · have same := set_reg_c_timer { v with callout := { v.callout with active := false } }
      (v.regC ||| rtcirPeriod)
    exact ⟨same.regA, same.regB⟩
  · exact ⟨rfl, rfl⟩

theorem callout_begun_freq (v : Vrtc) : vrtcFreq (calloutBegun v) = vrtcFreq v := by
  obtain ⟨regA, regB⟩ := callout_begun_timer v
  have begun : SameTimer v { calloutBegun v with callout := v.callout } := ⟨regA, regB, rfl⟩
  have time : (calloutBegun v).baseRtctime = v.baseRtctime := (callout_begun_same v).time
  exact @freq_congr v { calloutBegun v with callout := v.callout } begun (by rw [time])

theorem callout_updated_freq (timed : Timed v) (runs : calloutRuns v = true)
    (keeps : hasBits v.regB rtcsbAllIntrs = true →
      (aintrEnabled (calloutBegun v) || uintrEnabled (calloutBegun v)) = true →
        KeepsTimer (presentUpdate .callout now (calloutBegun v))) :
    vrtcFreq v ≠ 0 ∧
      ∀ w, calloutUpdated kernel now (calloutBegun v) = .ok w → vrtcFreq w ≠ 0 := by
  have active : v.callout.active = true := ((Bool.and_eq_true_iff).mp runs).1
  have freq : vrtcFreq v ≠ 0 := of_decide_eq_true (timed.symm.trans active)
  refine ⟨freq, fun w updated => ?_⟩
  rw [← callout_begun_freq] at freq
  unfold calloutUpdated at updated
  split at updated
  · next ticks =>
    have enabled := enabled_of_freq (callout_begun_freq v ▸ freq)
    have kept := keeps enabled ticks nofun
    rw [time_update_freq (assert_update_ran updated) kept]
    exact freq
  · cases updated
    exact freq

theorem callout_serving (serving : Serving v) (ran : vrtcCalloutHandler kernel now v = .ok w) :
    Serving w := by
  rw [callout_eq] at ran
  split at ran
  · cases ran
    exact serving
  · split at ran
    · cases ran
    · obtain ⟨u, updated, ran⟩ := bind_ok_split ran
      obtain ⟨regA, regB⟩ := callout_begun_timer v
      have begun : ¬ RateOff (calloutBegun v) :=
        rate_congr regA (by rw [pintrEnabled, regB, ← pintrEnabled]) serving.on
      have after : ¬ RateOff u := by
        unfold calloutUpdated at updated
        split at updated
        · exact rate_same (time_update_timer (assert_update_ran updated)) begun
        · cases updated
          exact begun
      split at ran
      · cases ran
      · next freq =>
        cases ran
        refine ⟨?_, rate_registers (callout_reset_registers u _) after⟩
        unfold vrtcCalloutReset Timed
        rw [if_neg freq]
        exact (decide_eq_true freq).symm

theorem set_reg_b_value (unchanged : hasBits (v.regB ^^^ newval) rtcsbHalt = false)
    (ran : vrtcSetRegB kernel now v newval = .ok (w, error)) : w.regB = newval := by
  have stored : haltChanged kernel now v newval = .ok (v.store rtcRegB newval, 0) := by
    unfold haltChanged
    rw [unchanged, if_neg Bool.false_ne_true]
  rw [set_reg_b_halt, bind_ok stored] at ran
  unfold regBEffects at ran
  obtain ⟨u, adjusted, ran⟩ := bind_ok_split ran
  cases ran
  have value : (v.store rtcRegB newval).regB = newval := rfl
  rw [(callout_adjust_same adjusted).regB]
  split
  · exact (set_reg_c_timer _ _).regB.trans value
  · exact value

theorem reset_disables : ∀ regB : BitVec 8,
    hasBits (regB &&& ~~~(rtcsbAllIntrs ||| rtcsbSqwe)) rtcsbAllIntrs = false := by
  decide

theorem reset_idle (timed : Timed v)
    (set_ : vrtcSetRegB kernel now v (resetRegB v) = .ok (w, error)) :
    Timed w ∧ (vrtcSetRegC w 0).callout.active = false := by
  have unchanged := reset_keeps_halt v.regB
  have after : Timed w := (reg_b_adjusted timed).2 w error set_ fun refuses =>
    absurd (refuses.1.symm.trans unchanged) (by decide)
  have disabled : hasBits w.regB rtcsbAllIntrs = false := by
    rw [set_reg_b_value unchanged set_]
    exact reset_disables v.regB
  have off : vrtcFreq w = 0 := by
    apply not_not.mp
    intro freq
    exact absurd (disabled.symm.trans (enabled_of_freq freq)) (by decide)
  refine ⟨after, ?_⟩
  rw [(set_reg_c_timer w 0).callout, after, off]
  rfl

theorem reset_serving (timed : Timed v) (ran : vrtcReset kernel now v = .ok w) : Serving w := by
  obtain ⟨⟨u, error⟩, set_, ran⟩ := bind_ok_split ran
  have silent : ∀ b : BitVec 8, hasBits (b &&& ~~~(rtcsbAllIntrs ||| rtcsbSqwe)) rtcsbPintr = false := by
    decide
  have after : Serving u :=
    ⟨(reset_idle timed set_).1, set_reg_b_rate (rate_disabled (silent v.regB)) set_⟩
  dsimp only at ran
  split at ran
  · cases ran
  · cases ran
    exact set_reg_c_serving after 0

theorem port_written_serving {val : BitVec 8} (serving : Serving v)
    (regA : offset = rtcRegA → ¬ RateOff (v.store rtcRegA (val &&& ~~~rtcsaTup)))
    (regB : offset = rtcRegB → ¬ RateOff (v.store rtcRegB val) ∧
      (refusesClear kernel v val → (vrtcFreq (v.store rtcRegB val) = 0 ↔ vrtcFreq v = 0)))
    (ran : portWritten kernel now v offset val = .ok (w, error)) : Serving w := by
  unfold portWritten at ran
  split at ran
  · next here =>
    obtain ⟨u, set_, ran⟩ := bind_ok_split ran
    cases ran
    exact ⟨(reg_a_adjusted serving.timed now val).2 _ set_, set_reg_a_rate (regA here) set_⟩
  · next notA =>
    split at ran
    · next here =>
      exact ⟨(reg_b_adjusted serving.timed).2 w error ran (regB here).2,
        set_reg_b_rate (regB here).1 ran⟩
    · next notB =>
      split at ran
      · cases ran
        exact serving
      · cases ran
        exact serving_same (store_timer notA notB _) rfl serving

theorem nvram_write_serving (serving : Serving v) (offset : Int) (value : BitVec 8) :
    Serving (vrtcNvramWrite v offset value).1 := by
  unfold vrtcNvramWrite nvramOffset
  split
  · exact serving
  · next inside =>
    refine serving_same (store_timer ?_ ?_ value) rfl serving
    · unfold rtcRegA
      omega
    · unfold rtcRegB
      omega

theorem nvram_read_serving {offset : Int} {retval out : BitVec 8} (serving : Serving v)
    (ran : vrtcNvramRead kernel now v offset retval = .ok (w, out, error)) : Serving w := by
  unfold vrtcNvramRead at ran
  split at ran
  · cases ran
    exact serving
  · split at ran
    · obtain ⟨u, stored, ran⟩ := bind_ok_split ran
      cases ran
      exact serving_same (secs_to_rtc_timer stored) (secs_to_rtc_same stored).time serving
    · cases ran
      exact serving

end

section
variable {kernel : Kernel} {d : Device} {w : Vrtc} {event : Event}

theorem data_out_serving {v : Vrtc} {val : BitVec 8} {error : Int} (serving : Serving v)
    (regA : d.vrtc.addr = rtcRegA → ¬ RateOff (v.store rtcRegA (val &&& ~~~rtcsaTup)))
    (regB : d.vrtc.addr = rtcRegB → ¬ RateOff (v.store rtcRegB val) ∧
      (refusesClear kernel v val → (vrtcFreq (v.store rtcRegB val) = 0 ↔ vrtcFreq v = 0)))
    (century : d.vrtc.addr = rtcCentury → rtcHalted (v.store rtcCentury val) = false →
      KeepsTimer (fieldsUpdate kernel .century d.now (v.store rtcCentury val)))
    (ran : vrtcDataOut kernel d.now v d.vrtc.addr val = .ok (w, error)) : Serving w := by
  rw [data_out_eq] at ran
  obtain ⟨p, written, ran⟩ := bind_ok_split ran
  have after : Serving p.1 := port_written_serving serving regA regB written
  split at ran
  · next both =>
    obtain ⟨here, running⟩ := both
    rw [here] at written
    have stored : p = (v.store rtcCentury val, 0) := (Except.ok.inj written).symm
    subst stored
    obtain ⟨u, updated, ran⟩ := bind_ok_split ran
    cases ran
    exact time_update_serving (assert_update_ran updated)
      (century here ((Bool.not_eq_true' _).mp running) nofun) after
  · cases ran
    exact after

theorem data_serving {isIn : Bool} {bytes : Nat} {val out : BitVec 8} {error : Int}
    (serving : Serving d.vrtc) (kept : TimerKept kernel d (.data isIn bytes val))
    (ran : vrtcDataHandler kernel d.now d.vrtc isIn bytes val = .ok (w, out, error)) : Serving w := by
  unfold vrtcDataHandler at ran
  split at ran
  · cases ran
    exact serving
  · next single =>
    obtain rfl := not_not.mp single
    dsimp only at ran
    split at ran
    · cases ran
      exact serving
    · next inside =>
      obtain ⟨u, refreshed, ran⟩ := bind_ok_split ran
      have same := refresh_timer refreshed
      have keeps := kept.updates _ (.dataPort isIn val (Nat.not_le.mp inside))
      have after := refresh_serving serving keeps refreshed
      cases isIn with
      | true =>
        rw [if_pos rfl] at ran
        split at ran
        · cases ran
          exact set_reg_c_serving after 0
        · cases ran
          exact after
      | false =>
        obtain ⟨⟨u', failed⟩, written, ran⟩ := bind_ok_split ran
        cases ran
        refine data_out_serving after (fun here => ?_) (fun here => ⟨?_, ?_⟩) (fun here => ?_) written
        · have before : ¬ RateOff (d.vrtc.store rtcRegA (val &&& ~~~rtcsaTup)) :=
            fun off => kept.rate (.inl ⟨here, off⟩)
          exact @rate_congr (d.vrtc.store rtcRegA _) (u.store rtcRegA _) rfl
            (congrArg (hasBits · rtcsbPintr) same.regB) before
        · have before : ¬ RateOff (d.vrtc.store rtcRegB val) :=
            fun off => kept.rate (.inr ⟨here, off⟩)
          exact @rate_congr (d.vrtc.store rtcRegB _) (u.store rtcRegB _) same.regA rfl before
        · rw [here] at refreshed
          exact kept.refused val u rfl here refreshed
        · rw [here] at refreshed
          exact fun running => kept.updates _ (.century val u here refreshed running)

theorem respond_serving (serving : Serving d.vrtc) (kept : TimerKept kernel d event)
    (ran : respond kernel d.now d.vrtc event = .ok w) : Serving w := by
  cases event with
  | elapse ticks =>
    cases ran
    exact serving
  | expire =>
    cases ran
    exact ⟨serving.timed, serving.on⟩
  | callout => exact callout_serving serving ran
  | setTime secs =>
    obtain ⟨⟨u, error⟩, updated, ran⟩ := bind_ok_split ran
    cases ran
    have keeps := kept.updates _ (.host secs) nofun
    exact time_update_serving updated keeps serving
  | nvramWrite offset value =>
    cases ran
    exact nvram_write_serving serving offset value
  | nvramRead offset =>
    obtain ⟨⟨u, out, error⟩, read, ran⟩ := bind_ok_split ran
    cases ran
    exact nvram_read_serving serving read
  | address isIn bytes val =>
    cases ran
    unfold vrtcAddrHandler
    split
    · exact serving
    · split
      · exact serving
      · exact ⟨serving.timed, serving.on⟩
  | data isIn bytes val =>
    obtain ⟨⟨u, out, error⟩, handled, ran⟩ := bind_ok_split ran
    cases ran
    exact data_serving serving kept handled
  | reset => exact reset_serving serving.timed ran

theorem checks_hold (serving : Serving d.vrtc) (kept : TimerKept kernel d event) (condition : Prop)
    (check : CalloutCheck kernel d.now d.vrtc event condition) : condition := by
  have handler := @callout_updated_freq kernel d.now d.vrtc serving.timed
  cases check with
  | gratuitous runs =>
    have active : d.vrtc.callout.active = true := ((Bool.and_eq_true_iff).mp runs).1
    exact enabled_of_freq (of_decide_eq_true (serving.timed.symm.trans active))
  | updated u error _ updated => exact present_update_error updated
  | frequency u runs updated =>
    refine (handler runs fun enabled ticks => ?_).2 u updated
    exact kept.updates _ (.callout runs enabled ticks)
  | regA val u here refreshed =>
    have inside : d.vrtc.addr < sizeofRtcdev := by
      rw [here]
      decide
    have after := refresh_serving serving (kept.updates _ (.dataPort false val inside)) refreshed
    exact (reg_a_adjusted after.timed d.now val).1
  | regB val u u' here refreshed changed =>
    have inside : d.vrtc.addr < sizeofRtcdev := by
      rw [here]
      decide
    have after := refresh_serving serving (kept.updates _ (.dataPort false val inside)) refreshed
    exact (reg_b_adjusted after.timed).1 u' changed
  | resetRegB u changed => exact (reg_b_adjusted serving.timed).1 u changed
  | reset u error set_ => exact (reset_idle serving.timed set_).2

theorem step_serving {d' : Device} (serving : Serving d.vrtc) (kept : TimerKept kernel d event)
    (taken : step kernel d event = .ok d') : Serving d'.vrtc := by
  obtain ⟨u, responded, taken⟩ := bind_ok_split taken
  cases taken
  exact respond_serving serving kept responded

theorem callout_holds (serving : Serving d.vrtc) (kept : TimerKept kernel d event) :
    CalloutHolds kernel d event :=
  ⟨checks_hold serving kept, fun _ taken => (step_serving serving kept taken).timed,
    fun _ taken => serving_active (step_serving serving kept taken)⟩

end

theorem init_idle {kernel : Kernel} {now : Int} {v : Vrtc} (init : vrtcInit kernel now = .ok v) :
    v.regB = rtcsb24hr ∧ ¬ Ticking v ∧ Timed v := by
  obtain ⟨⟨u, error⟩, updated, stored⟩ := bind_ok_split init
  have idle : ∀ w : Vrtc, w.regB = rtcsb24hr → ¬ Ticking w := by
    intro w regB ticking
    have enabled := ticking.2.2.2
    rw [aintrEnabled, uintrEnabled, regB] at enabled
    exact absurd enabled (by decide)
  have same := same_timer_trans (time_update_timer updated) (secs_to_rtc_timer stored)
  refine ⟨same.regB, idle v same.regB, ?_⟩
  exact timed_congr same (freq_idle same (idle _ rfl)) rfl

/-- In every run from the start whose events keep the timer, the callout runs exactly where there
    is a frequency to run it at, and wherever an interrupt is enabled, after every event. -/
theorem callout_follows_frequency (kernel : Kernel) : ∀ now v, vrtcInit kernel now = .ok v →
    ∀ events, AlongAttempts (step kernel) (TimerKept kernel) ⟨v, now⟩ events →
      AlongAttempts (step kernel) (CalloutHolds kernel) ⟨v, now⟩ events := by
  intro now v init events
  obtain ⟨regB, -, timed⟩ := init_idle init
  have on : ¬ RateOff v := rate_disabled (by rw [pintrEnabled, regB]; decide)
  refine @along_attempts_of_invariant _ _ _ _ (fun d => Serving d.vrtc) _ _ ?_ ?_ events _ ⟨timed, on⟩
  · intro d event d' serving kept taken
    exact step_serving serving kept taken
  · intro d event serving kept
    exact callout_holds serving kept

def updatesOn : List Event :=
  [.address false 1 0x0b, .data false 1 0x12, .elapse (3 * 4294967296)]

theorem updates_on_timed : ∃ v, vrtcInit gregorianKernel 0 = .ok v ∧
    AlongAttempts (step gregorianKernel) (CalloutHolds gregorianKernel) ⟨v, 0⟩ updatesOn := by
  have starts : (vrtcInit gregorianKernel 0).toOption.isSome = true := by decide
  cases init : vrtcInit gregorianKernel 0 with
  | error fault =>
    rw [init] at starts
    cases starts
  | ok v =>
    obtain ⟨regB, idle, -⟩ := init_idle init
    refine ⟨v, rfl, callout_follows_frequency gregorianKernel 0 v init _ ⟨?_, ?_, ?_⟩⟩
    · exact ⟨nofun, nofun, not_false⟩
    · refine ⟨?_, ?_, ?_⟩
      · intro u made
        cases made with
        | dataPort => exact fun _ ticking => absurd ticking idle
        | century _ _ here => cases here
        | clearHalt => exact fun never => absurd rfl never
      · intro val w written _ refreshed refuses
        cases written
        have same : w.regB = v.regB := (refresh_timer refreshed).regB
        rw [refusesClear, same, regB] at refuses
        exact absurd refuses.1 (by decide)
      · rintro (⟨wrong, -⟩ | ⟨-, off⟩)
        · cases wrong
        · exact absurd off (rate_disabled (by decide : hasBits (0x12 : BitVec 8) rtcsbPintr = false))
    · cases step gregorianKernel _ _ with
      | error fault => trivial
      | ok d =>
        exact ⟨⟨nofun, nofun, not_false⟩,
          trivial⟩

def centuryChosen : List Event :=
  [.address false 1 0x0b, .data false 1 0x12, .address false 1 0x32]

theorem century_breaks_timer : ¬ ∀ now v, vrtcInit gregorianKernel now = .ok v → ∀ events,
    AlongAttempts (step gregorianKernel) (CalloutHolds gregorianKernel) ⟨v, now⟩ events := by
  intro every
  have reached : ((vrtcInit gregorianKernel 0).toOption.bind fun v =>
      (attempts (step gregorianKernel) ⟨v, 0⟩ centuryChosen).toOption.bind fun d =>
        (step gregorianKernel d (.data false 1 0xff)).toOption).any (fun d =>
          d.vrtc.callout.active && decide (vrtcFreq d.vrtc = 0)) = true := by
    decide
  cases init : vrtcInit gregorianKernel 0 with
  | error fault =>
    rw [init] at reached
    cases reached
  | ok v =>
    rw [init] at reached
    dsimp only [Except.toOption, Option.bind_some] at reached
    cases ran : attempts (step gregorianKernel) ⟨v, 0⟩ centuryChosen with
    | error fault =>
      rw [ran] at reached
      cases reached
    | ok d =>
      rw [ran] at reached
      dsimp only [Option.bind_some] at reached
      have holds : CalloutHolds gregorianKernel d (.data false 1 0xff) :=
        along_attempts_last centuryChosen _ ran (every 0 v init _)
      cases taken : step gregorianKernel d (.data false 1 0xff) with
      | error fault =>
        rw [taken] at reached
        cases reached
      | ok d' =>
        rw [taken] at reached
        obtain ⟨active, off⟩ := (Bool.and_eq_true_iff).mp reached
        have timed := holds.timed d' taken
        rw [Timed, of_decide_eq_true off, active] at timed
        cases timed

end Rtc
