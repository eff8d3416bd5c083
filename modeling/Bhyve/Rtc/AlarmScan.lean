import Bhyve.Rtc.Events

namespace Rtc
open ByteMemory Fallible StepRuns

/-- The callers of vrtc_time_update; one that sets HALT always passes the broken time. -/
inductive Caller where
  | callout
  | host
  | dataPort
  | century
  | clearHalt
  deriving DecidableEq

structure TimeUpdate where
  caller : Caller
  vrtc : Vrtc
  newtime : Int
  newbase : Int

def presentUpdate (caller : Caller) (now : Int) (v : Vrtc) : TimeUpdate :=
  ⟨caller, v, (vrtcCurtime now v).1, (vrtcCurtime now v).2⟩

def fieldsUpdate (kernel : Kernel) (caller : Caller) (now : Int) (v : Vrtc) : TimeUpdate :=
  ⟨caller, v, rtcToSecs kernel v, now⟩

def clearsHalt (kernel : Kernel) (v : Vrtc) (val : BitVec 8) : Prop :=
  hasBits (v.regB ^^^ val) rtcsbHalt = true ∧ hasBits val rtcsbHalt = false ∧
    ¬ (rtcToSecs kernel (v.store rtcRegB val) = brokenTime ∧ kernel.flagBrokenTime = true)

inductive Updates (kernel : Kernel) (now : Int) (v : Vrtc) : Event → TimeUpdate → Prop where
  | callout : calloutRuns v = true → hasBits v.regB rtcsbAllIntrs = true →
      (aintrEnabled (calloutBegun v) || uintrEnabled (calloutBegun v)) = true →
      Updates kernel now v .callout (presentUpdate .callout now (calloutBegun v))
  | host (secs : Int) : Updates kernel now v (.setTime secs) ⟨.host, v, secs, now⟩
  | dataPort (isIn : Bool) (val : BitVec 8) : v.addr < sizeofRtcdev →
      Updates kernel now v (.data isIn 1 val) (presentUpdate .dataPort now v)
  | century (val : BitVec 8) (w : Vrtc) : v.addr = rtcCentury →
      vrtcRefresh kernel now v rtcCentury = .ok w → rtcHalted (w.store rtcCentury val) = false →
      Updates kernel now v (.data false 1 val)
        (fieldsUpdate kernel .century now (w.store rtcCentury val))
  | clearHalt (val : BitVec 8) (w : Vrtc) : v.addr = rtcRegB →
      vrtcRefresh kernel now v rtcRegB = .ok w → clearsHalt kernel w val →
      Updates kernel now v (.data false 1 val)
        (fieldsUpdate kernel .clearHalt now (w.store rtcRegB val))

/-- Only the host and a century write can pass an earlier time. -/
def Meets (kernel : Kernel) (u : TimeUpdate) : Prop :=
  Scanned u.vrtc u.newtime →
    (u.caller = .host ∨ u.caller = .century → Forward u.vrtc u.newtime) ∧
      Dated kernel u.vrtc u.newtime

structure EventEnds (kernel : Kernel) (d : Device) (event : Event) : Prop where
  updates : ∀ u, Updates kernel d.now d.vrtc event u →
    (Completes kernel u.vrtc u.newtime u.newbase ↔ Meets kernel u)
  returns : (∀ u, Updates kernel d.now d.vrtc event u → Meets kernel u) →
    step kernel d event ≠ .error .runaway

section
variable {kernel : Kernel} {now : Int} {v : Vrtc} {event : Event} {u : TimeUpdate}

theorem present_forward (settled : Settled now v) (caller : Caller) :
    Forward (presentUpdate caller now v).vrtc (presentUpdate caller now v).newtime :=
  .inr (curtime_later settled.base).1

theorem guest_forward (settled : Settled now v) (made : Updates kernel now v event u) :
    (u.caller = .host ∨ u.caller = .century) ∨ Forward u.vrtc u.newtime := by
  cases made with
  | callout _ _ _ =>
    exact .inr (present_forward (settled_same settled (callout_begun_same v)) .callout)
  | host secs => exact .inl (.inl rfl)
  | dataPort isIn val _ => exact .inr (present_forward settled .dataPort)
  | century val w _ _ _ => exact .inl (.inr rfl)
  | clearHalt val w _ refreshed clears =>
    obtain ⟨changed, clear, -⟩ := clears
    have halted : rtcHalted w = true := halt_was_set changed clear
    exact .inr (.inl ((refresh_settled settled refreshed).halt halted))

theorem meets_iff (settled : Settled now v) (made : Updates kernel now v event u) :
    Meets kernel u ↔ ScanEnds kernel u.vrtc u.newtime := by
  constructor
  · intro meets scanned
    obtain ⟨order, dated⟩ := meets scanned
    obtain caller | forward := guest_forward settled made
    · exact ⟨order caller, dated⟩
    · exact ⟨forward, dated⟩
  · intro ends scanned
    obtain ⟨forward, dated⟩ := ends scanned
    exact ⟨fun _ => forward, dated⟩

end

def Halts {α : Type} (x : Except Fault α) : Prop := x ≠ .error .runaway

theorem halts_ok {α : Type} (a : α) : Halts (.ok a : Except Fault α) := nofun

theorem halts_assertion {α : Type} : Halts (.error .assertion : Except Fault α) :=
  nofun

theorem halts_bind {α β : Type} {x : Except Fault α} {f : α → Except Fault β} (first : Halts x)
    (second : ∀ a, x = .ok a → Halts (f a)) : Halts (x >>= f) := by
  cases x with
  | ok a => exact second a rfl
  | error fault =>
    intro runs
    cases runs
    exact first rfl

section
variable {kernel : Kernel} {now : Int} {v : Vrtc}

theorem rtcset_halts (regB : BitVec 8) (val : Nat) : Halts (rtcset regB val) := by
  unfold rtcset
  split
  · exact halts_assertion
  · exact halts_ok _

theorem secs_to_rtc_halts (kernel : Kernel) (t : Int) (v : Vrtc) (force : Bool) :
    Halts (secsToRtc kernel t v force) := by
  unfold secsToRtc
  split
  · split
    · exact halts_ok v
    · exact halts_assertion
  · split
    · exact halts_ok v
    · dsimp only
      split
      · iterate 8 refine halts_bind (rtcset_halts _ _) fun _ _ => ?_
        exact halts_ok _
      · exact halts_assertion

theorem callout_adjust_halts (v : Vrtc) (oldfreq : Int) : Halts (vrtcCalloutAdjust v oldfreq) := by
  unfold vrtcCalloutAdjust vrtcCalloutCheck
  split
  · exact halts_ok _
  · split
    · exact halts_ok v
    · exact halts_assertion

theorem assert_halts {newtime newbase : Int}
    (updates : Halts (vrtcTimeUpdate kernel v newtime newbase)) :
    Halts (assertTimeUpdate kernel v newtime newbase) := by
  refine halts_bind updates fun p _ => ?_
  dsimp only
  split
  · exact halts_ok p.1
  · exact halts_assertion

theorem halt_edge_halts {newval : BitVec 8} (updates : hasBits newval rtcsbHalt = false →
      ¬ (rtcToSecs kernel v = brokenTime ∧ kernel.flagBrokenTime = true) →
        Halts (vrtcTimeUpdate kernel v (rtcToSecs kernel v) now)) :
    Halts (regBHaltEdge kernel now v newval) := by
  unfold regBHaltEdge
  split
  · next clear =>
    dsimp only
    split
    · exact halts_ok _
    · next known =>
      refine halts_bind (assert_halts (updates ((Bool.not_eq_true' _).mp clear) known)) fun _ _ => ?_
      exact halts_ok _
  · dsimp only
    split
    · exact halts_assertion
    · refine halts_bind (secs_to_rtc_halts _ _ _ _) fun u _ => ?_
      refine halts_bind (assert_halts ?_) fun _ _ => halts_ok _
      rw [time_update_breaks]
      exact halts_ok _

theorem set_reg_b_halts {newval : BitVec 8} (updates : clearsHalt kernel v newval →
      Halts (vrtcTimeUpdate kernel (v.store rtcRegB newval)
        (rtcToSecs kernel (v.store rtcRegB newval)) now)) :
    Halts (vrtcSetRegB kernel now v newval) := by
  rw [set_reg_b_eq]
  apply halts_bind
  · split
    · next changed =>
      exact halt_edge_halts fun clear known => updates ⟨changed, clear, known⟩
    · exact halts_ok _
  · intro p _
    unfold regBEffects
    split
    · exact halts_ok p
    · exact halts_bind (callout_adjust_halts _ _) fun _ _ => halts_ok _

theorem data_out_halts {offset : Nat} {val : BitVec 8}
    (clears : offset = rtcRegB → clearsHalt kernel v val →
      Halts (vrtcTimeUpdate kernel (v.store rtcRegB val)
        (rtcToSecs kernel (v.store rtcRegB val)) now))
    (century : offset = rtcCentury → rtcHalted (v.store rtcCentury val) = false →
      Halts (vrtcTimeUpdate kernel (v.store rtcCentury val)
        (rtcToSecs kernel (v.store rtcCentury val)) now)) :
    Halts (vrtcDataOut kernel now v offset val) := by
  rw [data_out_eq]
  apply halts_bind
  · unfold portWritten
    split
    · exact halts_bind (callout_adjust_halts _ _) fun _ _ => halts_ok _
    · split
      · next regB => exact set_reg_b_halts (clears regB)
      · split
        · exact halts_ok _
        · exact halts_ok _
  · intro p written
    split
    · next both =>
      obtain ⟨rfl, running⟩ := both
      have stored : p = (v.store rtcCentury val, 0) := (Except.ok.inj written).symm
      subst stored
      have updates := century rfl ((Bool.not_eq_true' _).mp running)
      exact halts_bind (assert_halts updates) fun _ _ => halts_ok _
    · exact halts_ok p

theorem callout_halts (updates : calloutRuns v = true → hasBits v.regB rtcsbAllIntrs = true →
      (aintrEnabled (calloutBegun v) || uintrEnabled (calloutBegun v)) = true →
        Halts (vrtcTimeUpdate kernel (calloutBegun v) (vrtcCurtime now (calloutBegun v)).1
          (vrtcCurtime now (calloutBegun v)).2)) :
    Halts (vrtcCalloutHandler kernel now v) := by
  rw [callout_eq]
  split
  · exact halts_ok v
  · next runs =>
    split
    · exact halts_assertion
    · next enabled =>
      apply halts_bind
      · unfold calloutUpdated
        split
        · next timed =>
          have made := updates (by simpa using runs) (by simpa using enabled) timed
          exact assert_halts made
        · exact halts_ok _
      · intro w _
        split
        · exact halts_assertion
        · exact halts_ok _

theorem reset_keeps_halt : ∀ regB : BitVec 8,
    hasBits (regB ^^^ (regB &&& ~~~(rtcsbAllIntrs ||| rtcsbSqwe))) rtcsbHalt = false := by
  decide

theorem respond_halts {event : Event} (updates : ∀ u, Updates kernel now v event u →
      Halts (vrtcTimeUpdate kernel u.vrtc u.newtime u.newbase)) :
    Halts (respond kernel now v event) := by
  cases event with
  | elapse ticks => exact halts_ok v
  | expire => exact halts_ok _
  | callout =>
    exact callout_halts fun runs enabled timed => updates _ (.callout runs enabled timed)
  | setTime secs => exact halts_bind (updates _ (.host secs)) fun _ _ => halts_ok _
  | nvramWrite offset value => exact halts_ok _
  | nvramRead offset =>
    refine halts_bind ?_ fun _ _ => halts_ok _
    unfold vrtcNvramRead
    split
    · exact halts_ok _
    · split
      · exact halts_bind (secs_to_rtc_halts _ _ _ _) fun _ _ => halts_ok _
      · exact halts_ok _
  | address isIn bytes val => exact halts_ok _
  | data isIn bytes val =>
    refine halts_bind ?_ fun _ _ => halts_ok _
    unfold vrtcDataHandler
    split
    · exact halts_ok _
    · next single =>
      obtain rfl := not_not.mp single
      dsimp only
      split
      · exact halts_ok _
      · next inside =>
        have refreshes : Halts (vrtcRefresh kernel now v v.addr) := by
          refine halts_bind (updates _ (.dataPort isIn val (Nat.not_le.mp inside))) fun p _ => ?_
          dsimp only
          split
          · exact secs_to_rtc_halts _ _ _ _
          · exact halts_ok _
        refine halts_bind refreshes fun w refreshed => ?_
        cases isIn with
        | true =>
          rw [if_pos rfl]
          split
          · exact halts_ok _
          · exact halts_ok _
        | false =>
          refine halts_bind (data_out_halts ?_ ?_) fun _ _ => halts_ok _
          · intro regB clears
            rw [regB] at refreshed
            exact updates _ (.clearHalt val w regB refreshed clears)
          · intro century running
            rw [century] at refreshed
            exact updates _ (.century val w century refreshed running)
  | reset =>
    refine halts_bind (set_reg_b_halts fun clears => ?_) fun _ _ => ?_
    · exact absurd (clears.1.symm.trans (reset_keeps_halt v.regB)) (by decide)
    · dsimp only
      split
      · exact halts_assertion
      · exact halts_ok _

end

/-- The alarm scan of an update ends exactly where it goes forward over times that are stored, for every
    state. In the states of a run only the host and a century write can make it go back. -/
theorem alarm_scan_ends {kernel : Kernel}
    (valid : ∀ t, 0 ≤ t → validClocktime (kernel.clockTsToCt t) = true) :
    (∀ v newtime newbase, Completes kernel v newtime newbase ↔ ScanEnds kernel v newtime) ∧
      ∀ now v, vrtcInit kernel now = .ok v → ∀ events d,
        attempts (step kernel) ⟨v, now⟩ events = .ok d → ∀ event, EventEnds kernel d event := by
  refine ⟨fun v newtime newbase => completes_iff valid, fun now v init events d ran event => ?_⟩
  have settled := run_settled init ran
  constructor
  · intro u made
    exact (completes_iff valid).trans (meets_iff settled made).symm
  · intro meets
    refine halts_bind (respond_halts fun u made => ?_) fun _ _ => halts_ok _
    obtain ⟨w, error, returned⟩ :=
      @scan_returns kernel u.vrtc u.newtime u.newbase valid ((meets_iff settled made).mp (meets u made))
    rw [returned]
    exact halts_ok _

def alarmOn : List Event :=
  [.setTime 1000, .address false 1 0x0b, .data false 1 0x22]

theorem alarm_on_reached : ∃ v d, vrtcInit gregorianKernel 0 = .ok v ∧
    attempts (step gregorianKernel) ⟨v, 0⟩ alarmOn = .ok d ∧ d.vrtc.baseRtctime = 1000 ∧
      rtcHalted d.vrtc = false ∧ aintrEnabled d.vrtc = true := by
  have reached : ((vrtcInit gregorianKernel 0).toOption.bind fun v =>
      (attempts (step gregorianKernel) ⟨v, 0⟩ alarmOn).toOption).any (fun d =>
        decide (d.vrtc.baseRtctime = 1000) && !rtcHalted d.vrtc && aintrEnabled d.vrtc) = true := by
    decide
  cases init : vrtcInit gregorianKernel 0 with
  | error fault =>
    rw [init] at reached
    cases reached
  | ok v =>
    rw [init] at reached
    cases ran : attempts (step gregorianKernel) ⟨v, 0⟩ alarmOn with
    | error fault =>
      dsimp only [Except.toOption, Option.bind_some] at reached
      rw [ran] at reached
      cases reached
    | ok d =>
      dsimp only [Except.toOption, Option.bind_some] at reached
      rw [ran] at reached
      dsimp only [Option.any_some] at reached
      simp only [Bool.and_eq_true, decide_eq_true_eq, Bool.not_eq_true'] at reached
      exact ⟨v, d, rfl, ran, reached.1.1, reached.1.2, reached.2⟩

theorem three_seconds_scanned : ∃ v d, vrtcInit gregorianKernel 0 = .ok v ∧
    attempts (step gregorianKernel) ⟨v, 0⟩ alarmOn = .ok d ∧
      Completes gregorianKernel d.vrtc 1003 0 ∧ EventEnds gregorianKernel d .callout := by
  obtain ⟨v, d, init, ran, time, -, -⟩ := alarm_on_reached
  obtain ⟨updates, runs⟩ := alarm_scan_ends fun t _ => gregorian_valid t
  refine ⟨v, d, init, ran, (updates d.vrtc 1003 0).mpr fun _ => ⟨?_, ?_⟩, runs 0 v init alarmOn d ran _⟩
  · rw [Forward, time]
    exact .inr (by decide)
  · intro t visited
    rw [Visits, time, if_neg (by decide)] at visited
    obtain rfl | rfl | rfl : t = 1001 ∨ t = 1002 ∨ t = 1003 := by omega
    all_goals exact .inr ⟨by decide, by decide⟩

theorem set_back_never_met : ¬ ∀ now v, vrtcInit gregorianKernel now = .ok v → ∀ events d,
    attempts (step gregorianKernel) ⟨v, now⟩ events = .ok d → ∀ event u,
      Updates gregorianKernel d.now d.vrtc event u →
        Completes gregorianKernel u.vrtc u.newtime u.newbase := by
  intro every
  obtain ⟨v, d, init, ran, time, running, alarm⟩ := alarm_on_reached
  have completes := every 0 v init alarmOn d ran _ _ (.host 500)
  have ends : ScanEnds gregorianKernel d.vrtc 500 :=
    (completes_iff fun t _ => gregorian_valid t).mp completes
  have changed : (500 : Int) ≠ d.vrtc.baseRtctime := by
    rw [time]
    decide
  obtain ⟨broken | forward, -⟩ := ends ⟨changed, by decide, running, alarm⟩
  · rw [time] at broken
    exact absurd broken (by decide)
  · rw [time] at forward
    exact absurd forward (by decide)

end Rtc
