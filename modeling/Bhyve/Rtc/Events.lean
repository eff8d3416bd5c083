import Bhyve.Lib.StepRuns
import Bhyve.Rtc.Update

/-!
The virtual RTC over whole runs: its callout, the host, the guest's port accesses and the resets of
the machine, while the uptime goes on. Each of these updates the time in its own way.
-/
namespace Rtc
open ByteMemory Fallible StepRuns

def rtcsbSqwe : BitVec 8 := 0x08
def einval : Int := 22
def nvramOffset : Int := 14

def calloutRuns (v : Vrtc) : Bool := v.callout.active && !v.callout.pending

def calloutBegun (v : Vrtc) : Vrtc :=
  let v := { v with callout := { v.callout with active := false } }
  if pintrEnabled v then vrtcSetRegC v (v.regC ||| rtcirPeriod) else v

variable (kernel : Kernel)

def vrtcCalloutHandler (now : Int) (v : Vrtc) : Except Fault Vrtc :=
  if !calloutRuns v then .ok v
  else if !hasBits v.regB rtcsbAllIntrs then .error .assertion
  else do
    let v := calloutBegun v
    let v ←
      if aintrEnabled v || uintrEnabled v then
        let (rtctime, basetime) := vrtcCurtime now v
        assertTimeUpdate kernel v rtctime basetime
      else .ok v
    if vrtcFreq v = 0 then .error .assertion else .ok (vrtcCalloutReset v (vrtcFreq v))

def vrtcNvramWrite (v : Vrtc) (offset : Int) (value : BitVec 8) : Vrtc × Int :=
  if offset < nvramOffset ∨ offset = rtcCentury ∨ sizeofRtcdev ≤ offset then (v, einval)
  else (v.store offset.toNat value, 0)

def vrtcNvramRead (now : Int) (v : Vrtc) (offset : Int) (retval : BitVec 8) :
    Except Fault (Vrtc × BitVec 8 × Int) :=
  if offset < 0 ∨ sizeofRtcdev ≤ offset then .ok (v, retval, einval)
  else do
    let v ← if isTimeOffset offset.toNat then secsToRtc kernel (vrtcCurtime now v).1 v false else .ok v
    .ok (v, v.rtcdev offset.toNat, 0)

def vrtcReset (now : Int) (v : Vrtc) : Except Fault Vrtc := do
  let (v, _) ← vrtcSetRegB kernel now v (v.regB &&& ~~~(rtcsbAllIntrs ||| rtcsbSqwe))
  let v := vrtcSetRegC v 0
  if v.callout.active then .error .assertion else .ok v

inductive Event where
  | elapse (ticks : Nat)
  | expire
  | callout
  | setTime (secs : Int)
  | nvramWrite (offset : Int) (value : BitVec 8)
  | nvramRead (offset : Int)
  | address (isIn : Bool) (bytes : Nat) (val : BitVec 8)
  | data (isIn : Bool) (bytes : Nat) (val : BitVec 8)
  | reset

structure Device where
  vrtc : Vrtc
  now : Int

/-- A callout that expires is no longer pending; its handler may come to the lock later. -/
def respond (now : Int) (v : Vrtc) : Event → Except Fault Vrtc
  | .elapse _ => .ok v
  | .expire => .ok { v with callout := { v.callout with pending := false } }
  | .callout => vrtcCalloutHandler kernel now v
  | .setTime secs => do
      let (v, _) ← vrtcSetTime kernel now v secs
      .ok v
  | .nvramWrite offset value => .ok (vrtcNvramWrite v offset value).1
  | .nvramRead offset => do
      let (v, _) ← vrtcNvramRead kernel now v offset 0
      .ok v
  | .address isIn bytes val => .ok (vrtcAddrHandler v isIn bytes val).1
  | .data isIn bytes val => do
      let (v, _) ← vrtcDataHandler kernel now v isIn bytes val
      .ok v
  | .reset => vrtcReset kernel now v

def elapsed : Event → Nat
  | .elapse ticks => ticks
  | _ => 0

def step (d : Device) (event : Event) : Except Fault Device := do
  let v ← respond kernel d.now d.vrtc event
  .ok ⟨v, d.now + elapsed event⟩

/-- The guest's HALT stands for a broken time, and the base of the time is in the past. -/
structure Settled (now : Int) (v : Vrtc) : Prop where
  halt : rtcHalted v = true → v.baseRtctime = brokenTime
  base : v.baseUptime ≤ now

section
variable {kernel : Kernel} {now : Int} {v w : Vrtc}

theorem settled_same (settled : Settled now v) (same : SameTime v w) : Settled now w := by
  obtain ⟨halt, -⟩ := same_flags same.regB
  refine ⟨fun halted => ?_, ?_⟩
  · exact same.time.trans (settled.halt (halt.symm.trans halted))
  · rw [same.base]
    exact settled.base

theorem settled_running (running : rtcHalted v = false) (base : v.baseUptime ≤ now) :
    Settled now v :=
  ⟨fun halted => absurd (running.symm.trans halted) Bool.false_ne_true, base⟩

theorem curtime_later (base : v.baseUptime ≤ now) :
    v.baseRtctime ≤ (vrtcCurtime now v).1 ∧ (vrtcCurtime now v).2 ≤ now := by
  have forward : 0 ≤ now - v.baseUptime := Int.sub_nonneg.mpr base
  have secs : 0 ≤ (now - v.baseUptime).tdiv sbt1s := Int.tdiv_nonneg forward (by decide)
  obtain ⟨rest, -⟩ := rest_of_second forward
  unfold vrtcCurtime
  split
  · constructor
    · show v.baseRtctime ≤ v.baseRtctime + _
      omega
    · show v.baseUptime + _ ≤ now
      omega
  · exact ⟨Int.le_refl _, base⟩

variable {error : Int} {newval : BitVec 8}

theorem time_update_settled {newtime newbase : Int} (settled : Settled now v)
    (past : newbase ≤ now) (ran : vrtcTimeUpdate kernel v newtime newbase = .ok (w, error)) :
    Settled now w := by
  obtain ⟨regB, base, done⟩ := time_update_same ran
  obtain ⟨halt, -⟩ := same_flags regB
  refine ⟨fun halted => ?_, base.symm ▸ past⟩
  have held := halt.symm.trans halted
  obtain ⟨-, reached, still⟩ | ⟨-, kept, -⟩ := done
  · obtain same | broken := still held
    · rw [reached, same]
      exact settled.halt held
    · exact reached.trans broken
  · exact kept.trans (settled.halt held)

theorem assert_update_ran {newtime newbase : Int}
    (ran : assertTimeUpdate kernel v newtime newbase = .ok w) :
    vrtcTimeUpdate kernel v newtime newbase = .ok (w, 0) := by
  obtain ⟨⟨u, error⟩, updated, ran⟩ := bind_ok_split ran
  dsimp only at ran
  split at ran
  · next zero =>
    cases ran
    rw [← zero]
    exact updated
  · cases ran

theorem callout_reset_same (v : Vrtc) (freq : Int) : SameTime v (vrtcCalloutReset v freq) := by
  unfold vrtcCalloutReset
  split
  · split
    · exact ⟨rfl, rfl, rfl⟩
    · exact same_time_refl v
  · exact ⟨rfl, rfl, rfl⟩

theorem callout_adjust_same {oldfreq : Int} (ran : vrtcCalloutAdjust v oldfreq = .ok w) :
    SameTime v w := by
  unfold vrtcCalloutAdjust at ran
  split at ran
  · cases ran
    exact callout_reset_same v _
  · unfold vrtcCalloutCheck at ran
    split at ran
    · cases ran
      exact same_time_refl v
    · cases ran

theorem halt_apart (regB newval : BitVec 8) : (regB ^^^ newval) &&& rtcsbHalt =
    (regB &&& rtcsbHalt) ^^^ (newval &&& rtcsbHalt) := by
  ext i
  simp only [BitVec.getElem_and, BitVec.getElem_xor, Bool.and_xor_distrib_right]

theorem halt_kept {regB : BitVec 8} (unchanged : hasBits (regB ^^^ newval) rtcsbHalt = false) :
    hasBits regB rtcsbHalt = hasBits newval rtcsbHalt := by
  have clear := not_not.mp (of_decide_eq_false unchanged)
  unfold hasBits
  rw [BitVec.xor_eq_zero_iff.mp ((halt_apart regB newval).symm.trans clear)]

theorem halt_was_set {regB : BitVec 8} (changed : hasBits (regB ^^^ newval) rtcsbHalt = true)
    (clear : hasBits newval rtcsbHalt = false) : hasBits regB rtcsbHalt = true := by
  have kept : (regB ^^^ newval) &&& rtcsbHalt = regB &&& rtcsbHalt := by
    rw [halt_apart, not_not.mp (of_decide_eq_false clear)]
    exact BitVec.xor_zero
  unfold hasBits at changed
  rw [kept] at changed
  exact changed

theorem set_reg_a_settled (settled : Settled now v) (ran : vrtcSetRegA now v newval = .ok w) :
    Settled now w := by
  unfold vrtcSetRegA at ran
  refine settled_same ?_ (callout_adjust_same ran)
  split
  · exact ⟨settled.halt, Int.le_refl now⟩
  · exact settled_same settled (store_same (by decide) _)

theorem halt_edge_settled {newval : BitVec 8} {error : Int} (base : v.baseUptime ≤ now)
    (regB : v.regB = newval) (ran : regBHaltEdge kernel now v newval = .ok (w, error)) :
    Settled now w := by
  unfold regBHaltEdge at ran
  split at ran
  · next clear =>
    have running : rtcHalted v = false := by
      rw [rtcHalted, regB]
      exact (Bool.not_eq_true' _).mp clear
    have settled := settled_running running base
    dsimp only at ran
    split at ran
    · cases ran
      exact settled
    · obtain ⟨u, updated, ran⟩ := bind_ok_split ran
      cases ran
      exact time_update_settled settled (Int.le_refl now) (assert_update_ran updated)
  · obtain ⟨-, past⟩ := curtime_later base
    dsimp only at ran
    split at ran
    · cases ran
    · obtain ⟨u, -, ran⟩ := bind_ok_split ran
      obtain ⟨u', updated, ran⟩ := bind_ok_split ran
      cases ran
      have done := assert_update_ran updated
      rw [time_update_breaks] at done
      cases done
      exact ⟨fun _ => rfl, past⟩

def regBEffects (changed : BitVec 8) (oldfreq : Int) (p : Vrtc × Int) : Except Fault (Vrtc × Int) :=
  if p.2 ≠ 0 then .ok p
  else do
    let v ← vrtcCalloutAdjust
      (if hasBits changed rtcsbAllIntrs then vrtcSetRegC p.1 p.1.regC else p.1) oldfreq
    .ok (v, 0)

theorem set_reg_b_eq (kernel : Kernel) (now : Int) (v : Vrtc) (newval : BitVec 8) :
    vrtcSetRegB kernel now v newval =
      (if hasBits (v.regB ^^^ newval) rtcsbHalt then
        regBHaltEdge kernel now (v.store rtcRegB newval) newval
      else .ok (v.store rtcRegB newval, 0)) >>= regBEffects (v.regB ^^^ newval) (vrtcFreq v) := by
  unfold vrtcSetRegB
  dsimp only
  split
  · rfl
  · rfl

theorem set_reg_b_settled (settled : Settled now v)
    (ran : vrtcSetRegB kernel now v newval = .ok (w, error)) : Settled now w := by
  rw [set_reg_b_eq] at ran
  obtain ⟨⟨u, failed⟩, edge, ran⟩ := bind_ok_split ran
  have after : Settled now u := by
    split at edge
    · exact @halt_edge_settled kernel now (v.store rtcRegB newval) u newval failed settled.base rfl
        edge
    · next unchanged =>
      cases edge
      refine ⟨fun halted => settled.halt ?_, settled.base⟩
      exact (halt_kept ((Bool.not_eq_true _).mp unchanged)).trans halted
  unfold regBEffects at ran
  split at ran
  · cases ran
    exact after
  · obtain ⟨u', adjusted, ran⟩ := bind_ok_split ran
    cases ran
    refine settled_same ?_ (callout_adjust_same adjusted)
    split
    · exact settled_same after (set_reg_c_same u _)
    · exact after

theorem refresh_settled {offset : Nat} (settled : Settled now v)
    (ran : vrtcRefresh kernel now v offset = .ok w) : Settled now w := by
  obtain ⟨⟨u, error⟩, updated, ran⟩ := bind_ok_split ran
  obtain ⟨-, past⟩ := curtime_later settled.base
  have after := time_update_settled settled past updated
  dsimp only at ran
  split at ran
  · exact settled_same after (secs_to_rtc_same ran)
  · cases ran
    exact after

theorem century_settled (settled : Settled now v)
    (ran : centuryWritten kernel now v = .ok (w, error)) : Settled now w := by
  obtain ⟨u, updated, ran⟩ := bind_ok_split ran
  cases ran
  exact time_update_settled settled (Int.le_refl now) (assert_update_ran updated)

def portWritten (kernel : Kernel) (now : Int) (v : Vrtc) (offset : Nat) (val : BitVec 8) :
    Except Fault (Vrtc × Int) :=
  if offset = rtcRegA then do
    let v ← vrtcSetRegA now v val
    .ok (v, 0)
  else if offset = rtcRegB then vrtcSetRegB kernel now v val
  else if offset = rtcRegC ∨ offset = rtcRegD then .ok (v, 0)
  else .ok (v.store offset (if offset = rtcSec then val &&& 0x7f else val), 0)

theorem data_out_eq (kernel : Kernel) (now : Int) (v : Vrtc) (offset : Nat) (val : BitVec 8) :
    vrtcDataOut kernel now v offset val = portWritten kernel now v offset val >>= fun p =>
      if offset = rtcCentury ∧ !rtcHalted p.1 then centuryWritten kernel now p.1 else .ok p := by
  unfold vrtcDataOut portWritten
  split
  · cases vrtcSetRegA now v val with
    | ok w => rfl
    | error fault => rfl
  · split
    · rfl
    · split
      · rfl
      · rfl

theorem data_out_settled {offset : Nat} {val : BitVec 8} (settled : Settled now v)
    (ran : vrtcDataOut kernel now v offset val = .ok (w, error)) : Settled now w := by
  rw [data_out_eq] at ran
  obtain ⟨⟨u, failed⟩, written, ran⟩ := bind_ok_split ran
  have after : Settled now u := by
    unfold portWritten at written
    split at written
    · obtain ⟨u', set_, written⟩ := bind_ok_split written
      cases written
      exact set_reg_a_settled settled set_
    · split at written
      · exact set_reg_b_settled settled written
      · next notB =>
        split at written
        · cases written
          exact settled
        · cases written
          exact settled_same settled (store_same notB _)
  split at ran
  · exact century_settled after ran
  · cases ran
    exact after

theorem data_settled {isIn : Bool} {bytes : Nat} {val out : BitVec 8} (settled : Settled now v)
    (ran : vrtcDataHandler kernel now v isIn bytes val = .ok (w, out, error)) : Settled now w := by
  unfold vrtcDataHandler at ran
  split at ran
  · cases ran
    exact settled
  · dsimp only at ran
    split at ran
    · cases ran
      exact settled
    · obtain ⟨u, refreshed, ran⟩ := bind_ok_split ran
      have after := refresh_settled settled refreshed
      split at ran
      · split at ran
        · cases ran
          exact settled_same after (set_reg_c_same u 0)
        · cases ran
          exact after
      · obtain ⟨⟨u', failed⟩, written, ran⟩ := bind_ok_split ran
        cases ran
        exact data_out_settled after written

theorem callout_begun_same (v : Vrtc) : SameTime v (calloutBegun v) := by
  have deactivated : SameTime v { v with callout := { v.callout with active := false } } :=
    ⟨rfl, rfl, rfl⟩
  unfold calloutBegun
  dsimp only
  split
  · exact same_time_trans deactivated (set_reg_c_same _ _)
  · exact deactivated

def calloutUpdated (kernel : Kernel) (now : Int) (v : Vrtc) : Except Fault Vrtc :=
  if aintrEnabled v || uintrEnabled v then
    assertTimeUpdate kernel v (vrtcCurtime now v).1 (vrtcCurtime now v).2
  else .ok v

theorem callout_eq (kernel : Kernel) (now : Int) (v : Vrtc) : vrtcCalloutHandler kernel now v =
      if !calloutRuns v then .ok v
      else if !hasBits v.regB rtcsbAllIntrs then .error .assertion
      else calloutUpdated kernel now (calloutBegun v) >>= fun w =>
        if vrtcFreq w = 0 then .error .assertion else .ok (vrtcCalloutReset w (vrtcFreq w)) := by
  unfold vrtcCalloutHandler calloutUpdated
  dsimp only
  split
  · rfl
  · split
    · rfl
    · split
      · rfl
      · rfl

theorem callout_settled (settled : Settled now v)
    (ran : vrtcCalloutHandler kernel now v = .ok w) : Settled now w := by
  rw [callout_eq] at ran
  split at ran
  · cases ran
    exact settled
  · split at ran
    · cases ran
    · obtain ⟨u, updated, ran⟩ := bind_ok_split ran
      have begun := settled_same settled (callout_begun_same v)
      obtain ⟨-, past⟩ := curtime_later begun.base
      have after : Settled now u := by
        unfold calloutUpdated at updated
        split at updated
        · exact time_update_settled begun past (assert_update_ran updated)
        · cases updated
          exact begun
      split at ran
      · cases ran
      · cases ran
        exact settled_same after (callout_reset_same u _)

theorem reset_settled (settled : Settled now v) (ran : vrtcReset kernel now v = .ok w) :
    Settled now w := by
  obtain ⟨⟨u, failed⟩, set_, ran⟩ := bind_ok_split ran
  have after := set_reg_b_settled settled set_
  dsimp only at ran
  split at ran
  · cases ran
  · cases ran
    exact settled_same after (set_reg_c_same u 0)

theorem nvram_write_settled (settled : Settled now v) (offset : Int) (value : BitVec 8) :
    Settled now (vrtcNvramWrite v offset value).1 := by
  unfold vrtcNvramWrite nvramOffset
  split
  · exact settled
  · next inside =>
    apply settled_same settled
    apply store_same
    unfold rtcRegB
    omega

theorem nvram_read_settled {offset : Int} {retval out : BitVec 8} (settled : Settled now v)
    (ran : vrtcNvramRead kernel now v offset retval = .ok (w, out, error)) : Settled now w := by
  unfold vrtcNvramRead at ran
  split at ran
  · cases ran
    exact settled
  · split at ran
    · obtain ⟨u, stored, ran⟩ := bind_ok_split ran
      cases ran
      exact settled_same settled (secs_to_rtc_same stored)
    · cases ran
      exact settled

theorem respond_settled {event : Event} (settled : Settled now v)
    (ran : respond kernel now v event = .ok w) : Settled now w := by
  cases event with
  | elapse ticks =>
    cases ran
    exact settled
  | expire =>
    cases ran
    exact settled_same settled ⟨rfl, rfl, rfl⟩
  | callout => exact callout_settled settled ran
  | setTime secs =>
    obtain ⟨⟨u, error⟩, updated, ran⟩ := bind_ok_split ran
    cases ran
    exact time_update_settled settled (Int.le_refl now) updated
  | nvramWrite offset value =>
    cases ran
    exact nvram_write_settled settled offset value
  | nvramRead offset =>
    obtain ⟨⟨u, out, error⟩, read, ran⟩ := bind_ok_split ran
    cases ran
    exact nvram_read_settled settled read
  | address isIn bytes val =>
    cases ran
    unfold vrtcAddrHandler
    split
    · exact settled
    · split
      · exact settled
      · exact settled_same settled ⟨rfl, rfl, rfl⟩
  | data isIn bytes val =>
    obtain ⟨⟨u, out, error⟩, handled, ran⟩ := bind_ok_split ran
    cases ran
    exact data_settled settled handled
  | reset => exact reset_settled settled ran

theorem step_settled {d d' : Device} {event : Event} (settled : Settled d.now d.vrtc)
    (taken : step kernel d event = .ok d') : Settled d'.now d'.vrtc := by
  obtain ⟨w, responded, taken⟩ := bind_ok_split taken
  have after := respond_settled settled responded
  cases taken
  exact ⟨after.halt, Int.le_trans after.base (Int.le_add_of_nonneg_right (Int.natCast_nonneg _))⟩

theorem init_settled (init : vrtcInit kernel now = .ok v) : Settled now v := by
  obtain ⟨⟨u, error⟩, updated, stored⟩ := bind_ok_split init
  obtain ⟨regB, base, -⟩ := time_update_same updated
  have running : rtcHalted u = false := by
    rw [rtcHalted, regB]
    rfl
  exact settled_same (settled_running running (Int.le_of_eq base)) (secs_to_rtc_same stored)

theorem run_settled {events : List Event} {d : Device} (init : vrtcInit kernel now = .ok v)
    (ran : attempts (step kernel) ⟨v, now⟩ events = .ok d) : Settled d.now d.vrtc := by
  obtain ⟨d', done, settled⟩ | ⟨_, _, fault, -, -, -, stopped⟩ :=
    @attempts_ok_or_fails _ _ _ (step kernel) (fun d => Settled d.now d.vrtc)
      (fun _ _ _ settled taken => step_settled settled taken) events ⟨v, now⟩ (init_settled init)
  · cases done.symm.trans ran
    exact settled
  · cases stopped.symm.trans ran

end

end Rtc
