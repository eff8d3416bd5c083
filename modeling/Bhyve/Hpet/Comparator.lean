import Bhyve.Hpet.Vhpet
import Bhyve.Lib.Fallible
import Mathlib.Algebra.Group.Nat.Defs
import Mathlib.Data.List.Chain

/-!
The comparators of the timers. The counter is followed without a bound from its base on, and the
handler of a timer is looked at where it runs.
-/
namespace Hpet
open Fallible StepRuns List BitVec Function

section
variable {t u : Timer} {counter : BitVec 32}

def Timer.ahead (t : Timer) (counter : BitVec 32) : Nat := (t.compval - counter).toNat

/-- The comparator of a periodic timer is put on the first period that is not yet over. -/
structure AdjustedAhead (t : Timer) (counter : BitVec 32) (u : Timer) : Prop where
  distance : u.ahead counter =
    t.comprate.toNat - (counter - t.compval).toNat % t.comprate.toNat
  least : 1 ≤ u.ahead counter
  most : u.ahead counter ≤ t.comprate.toNat

theorem adjusted_ahead (periodic : t.comprate ≠ 0) :
    ∃ u, vhpetAdjustCompval t counter = .ok u ∧ u.comprate = t.comprate ∧
      AdjustedAhead t counter u := by
  have some_ : 0 < t.comprate.toNat := by
    apply Nat.pos_of_ne_zero
    intro zero
    exact periodic (eq_of_toNat_eq zero)
  have part := Nat.mod_lt (counter - t.compval).toNat some_
  have whole : ((counter - t.compval) / t.comprate + 1) * t.comprate = (counter - t.compval) +
      BitVec.ofNat 32 (t.comprate.toNat - (counter - t.compval).toNat % t.comprate.toNat) := by
    generalize counter - t.compval = gap at part ⊢
    have divided := Nat.div_add_mod gap.toNat t.comprate.toNat
    have product : (gap.toNat / t.comprate.toNat + 1) * t.comprate.toNat =
        gap.toNat + (t.comprate.toNat - gap.toNat % t.comprate.toNat) := by
      rw [Nat.add_mul, Nat.one_mul, Nat.mul_comm]
      omega
    apply eq_of_toNat_eq
    rw [toNat_mul, toNat_add, toNat_udiv, toNat_add, toNat_ofNat,
      Nat.add_mod_mod, ← product]
    have one : (1 : BitVec 32).toNat = 1 := rfl
    rw [one, Nat.mod_mul_mod]
  have next : t.compval + ((counter - t.compval) / t.comprate + 1) * t.comprate - counter =
      BitVec.ofNat 32 (t.comprate.toNat - (counter - t.compval).toNat % t.comprate.toNat) := by
    rw [whole, ← BitVec.add_assoc, BitVec.add_comm t.compval, BitVec.sub_add_cancel,
      BitVec.add_comm, BitVec.add_sub_cancel]
  have distance : (t.compval + ((counter - t.compval) / t.comprate + 1) * t.comprate - counter).toNat =
      t.comprate.toNat - (counter - t.compval).toNat % t.comprate.toNat := by
    rw [next, toNat_ofNat]
    exact Nat.mod_eq_of_lt (by omega)
  refine ⟨_, if_neg periodic, rfl, distance, ?_, ?_⟩
  · unfold Timer.ahead
    rw [distance]
    omega
  · unfold Timer.ahead
    rw [distance]
    omega

end

/-- The callout is set for the time at which the counter has come as far as the comparator; the
    product of vhpet.c is taken in 64 bits. -/
structure Armed (counter : BitVec 32) (now : Int) (t : Timer) : Prop where
  callout : t.callout = ⟨true, true⟩
  deadline : t.calloutSbt = now + t.ahead counter * freqSbt
  product : ((t.compval - counter).setWidth 64 * BitVec.ofInt 64 freqSbt).toInt =
    t.ahead counter * freqSbt

theorem freq_sbt : freqSbt = 256 := by decide

theorem start_armed {v w : Vhpet} {n : TimerNum} {counter : BitVec 32} {now : Int}
    (started : vhpetStartTimer v n counter now = .ok w) : Armed counter now (w.timer n) := by
  obtain ⟨t, -, result⟩ := bind_ok_split started
  cases result
  have own : (v.store n (calloutReset t counter now)).timer n = calloutReset t counter now :=
    update_self ..
  rw [own]
  refine ⟨rfl, rfl, ?_⟩
  show ((t.compval - counter).setWidth 64 * BitVec.ofInt 64 freqSbt).toInt =
    ((t.compval - counter).toNat : Int) * freqSbt
  rw [freq_sbt]
  have ticks : BitVec.ofInt 64 256 = 256#64 := by decide
  have product : ((t.compval - counter).setWidth 64 * 256#64).toNat =
      (t.compval - counter).toNat * 256 := by
    rw [toNat_mul, toNat_setWidth, toNat_ofNat]
    omega
  rw [ticks, toInt_eq_toNat_of_lt (by omega), product]
  omega

section
variable {v w : Vhpet} {n : TimerNum} {now : Int}

def Vhpet.position (v : Vhpet) (sbt : Int) : Nat :=
  v.countbase.toNat + ((sbt - v.countbaseSbt) / freqSbt).toNat

def Vhpet.due (v : Vhpet) (n : TimerNum) : Nat := v.position (v.timer n).calloutSbt

/-- The counter runs, and comes to the comparator at the time of the callout; one that has expired
    has come to its time. -/
structure Aimed (n : TimerNum) (now : Int) (v : Vhpet) : Prop where
  enabled : v.counterEnabled = true
  base : v.countbaseSbt ≤ now
  after : v.countbaseSbt ≤ (v.timer n).calloutSbt
  target : BitVec.ofNat 32 (v.due n) = (v.timer n).compval
  expired : (v.timer n).callout.active = true → (v.timer n).callout.pending = false →
    (v.timer n).calloutSbt ≤ now

theorem counter_position {counter : BitVec 32} (counted : vhpetCounter now v true = .ok counter) :
    v.counterEnabled = true ∧ v.countbaseSbt ≤ now ∧ counter = BitVec.ofNat 32 (v.position now) := by
  rcases ite_split counted with ⟨enabled, running⟩ | ⟨-, stopped⟩
  · rcases ite_split running with ⟨-, backwards⟩ | ⟨forward, result⟩
    · cases backwards
    · have past : v.countbaseSbt ≤ now := Int.sub_nonneg.mp (Int.not_lt.mp forward)
      refine ⟨enabled, past, ?_⟩
      cases result
      have divided : (now - v.countbaseSbt).tdiv freqSbt =
          (((now - v.countbaseSbt) / freqSbt).toNat : Int) := by
        rw [freq_sbt, Int.tdiv_eq_ediv_of_nonneg (Int.sub_nonneg.mpr past)]
        omega
      unfold Vhpet.position
      rw [divided, ofInt_natCast, ofNat_add, BitVec.ofNat_toNat, setWidth_eq]
  · rcases ite_split stopped with ⟨-, refused⟩ | ⟨never, -⟩
    · cases refused
    · exact absurd rfl never

theorem position_later (past : v.countbaseSbt ≤ now) (ticks : Nat) :
    v.position (now + ticks * freqSbt) = v.position now + ticks := by
  unfold Vhpet.position
  rw [freq_sbt]
  omega

theorem position_mono {a b : Int} (order : a ≤ b) : v.position a ≤ v.position b := by
  unfold Vhpet.position
  rw [freq_sbt]
  omega

theorem started_aimed {counter : BitVec 32} (counted : vhpetCounter now v true = .ok counter)
    (started : vhpetStartTimer v n counter now = .ok w) :
    Aimed n now w ∧ w.due n = v.position now + (w.timer n).ahead counter ∧
      (w.timer n).comprate = (v.timer n).comprate ∧
      (if (v.timer n).comprate = 0 then (w.timer n).compval = (v.timer n).compval
        else AdjustedAhead (v.timer n) counter (w.timer n)) := by
  obtain ⟨enabled, past, same⟩ := counter_position counted
  obtain ⟨t, ahead, result⟩ := bind_ok_split started
  cases result
  have own : (v.store n (calloutReset t counter now)).timer n = calloutReset t counter now :=
    update_self ..
  have due : (v.store n (calloutReset t counter now)).due n =
      v.position now + (calloutReset t counter now).ahead counter := by
    unfold Vhpet.due
    rw [own]
    exact position_later past _
  have reached : BitVec.ofNat 32 (v.position now + (calloutReset t counter now).ahead counter) =
      t.compval := by
    rw [ofNat_add, ← same]
    show counter + BitVec.ofNat 32 (t.compval - counter).toNat = t.compval
    rw [BitVec.ofNat_toNat, setWidth_eq, BitVec.add_comm, BitVec.sub_add_cancel]
  rw [own]
  refine ⟨⟨enabled, past, ?_, ?_, ?_⟩, due, ?_⟩
  · rw [own]
    have some_ : (0 : Int) ≤ (t.compval - counter).toNat * freqSbt := by
      rw [freq_sbt]
      omega
    exact Int.le_trans past (Int.le_add_of_nonneg_right some_)
  · rw [own, due]
    exact reached
  · rw [own]
    intro _ never
    cases never
  · unfold compvalAhead at ahead
    by_cases oneShot : (v.timer n).comprate = 0
    · rw [if_neg (not_not.mpr oneShot)] at ahead
      cases ahead
      rw [if_pos oneShot]
      exact ⟨rfl, rfl⟩
    · rw [if_pos oneShot] at ahead
      obtain ⟨u, adjusted, rate, put⟩ := @adjusted_ahead (v.timer n) counter oneShot
      rw [ahead] at adjusted
      cases adjusted
      rw [if_neg oneShot]
      exact ⟨rate, put.distance, put.least, put.most⟩

structure SameSchedule (n : TimerNum) (v w : Vhpet) : Prop where
  enabled : w.counterEnabled = v.counterEnabled
  countbase : w.countbase = v.countbase
  countbaseSbt : w.countbaseSbt = v.countbaseSbt
  timer : w.timer n = v.timer n

theorem same_schedule_refl (n : TimerNum) (v : Vhpet) : SameSchedule n v v := ⟨rfl, rfl, rfl, rfl⟩

theorem same_position (same : SameSchedule n v w) (sbt : Int) : w.position sbt = v.position sbt := by
  unfold Vhpet.position
  rw [same.countbase, same.countbaseSbt]

theorem same_due (same : SameSchedule n v w) : w.due n = v.due n := by
  unfold Vhpet.due
  rw [same_position same, same.timer]

theorem same_aimed (aimed : Aimed n now v) (same : SameSchedule n v w) : Aimed n now w := by
  obtain ⟨enabled, base, after, target, expired⟩ := aimed
  refine ⟨same.enabled.trans enabled, ?_, ?_, ?_, ?_⟩
  · rwa [same.countbaseSbt]
  · rwa [same.countbaseSbt, same.timer]
  · rwa [same_due same, same.timer]
  · rwa [same.timer]

variable {m : TimerNum}

theorem interrupt_same (done : vhpetTimerInterrupt v m = .ok w) :
    w.timer = v.timer ∧ w.config = v.config ∧ w.countbase = v.countbase ∧
      w.countbaseSbt = v.countbaseSbt := by
  rcases ite_split done with ⟨-, off⟩ | ⟨-, rest⟩
  · cases off
    exact ⟨rfl, rfl, rfl, rfl⟩
  rcases ite_split rest with ⟨-, asserted⟩ | ⟨-, rest⟩
  · cases asserted
    exact ⟨rfl, rfl, rfl, rfl⟩
  rcases ite_split rest with ⟨-, message⟩ | ⟨-, rest⟩
  · cases message
    exact ⟨rfl, rfl, rfl, rfl⟩
  rcases ite_split rest with ⟨-, unrouted⟩ | ⟨-, wired⟩
  · cases unrouted
    exact ⟨rfl, rfl, rfl, rfl⟩
  obtain ⟨edge, -, result⟩ := bind_ok_split wired
  rcases ite_split result with ⟨-, pulse⟩ | ⟨-, level⟩
  · cases pulse
    exact ⟨rfl, rfl, rfl, rfl⟩
  · cases level
    exact ⟨rfl, rfl, rfl, rfl⟩

theorem interrupt_schedule (done : vhpetTimerInterrupt v m = .ok w) : SameSchedule n v w := by
  obtain ⟨timers, config, base, sbt⟩ := interrupt_same done
  refine ⟨?_, base, sbt, by rw [timers]⟩
  unfold Vhpet.counterEnabled
  rw [config]

theorem store_schedule (other : n ≠ m) (t : Timer) : SameSchedule n v (v.store m t) :=
  ⟨rfl, rfl, rfl, update_of_ne other ..⟩

theorem schedule_trans {x : Vhpet} (first : SameSchedule n v w) (second : SameSchedule n w x) :
    SameSchedule n v x :=
  ⟨second.enabled.trans first.enabled, second.countbase.trans first.countbase,
    second.countbaseSbt.trans first.countbaseSbt, second.timer.trans first.timer⟩

theorem handler_ran (done : vhpetHandler now v m = .ok w)
    (runs : ((v.timer m).callout.pending || !(v.timer m).callout.active) = false) :
    ∃ counter u, let idle := v.store m { v.timer m with
        callout := { (v.timer m).callout with active := false } }
      vhpetCounter now idle true = .ok counter ∧ vhpetStartTimer idle m counter now = .ok u ∧
        vhpetTimerInterrupt u m = .ok w := by
  unfold vhpetHandler at done
  dsimp only at done
  rw [runs, if_neg Bool.false_ne_true] at done
  rcases ite_split done with ⟨-, stopped⟩ | ⟨-, rest⟩
  · cases stopped
  obtain ⟨counter, counted, rest⟩ := bind_ok_split rest
  obtain ⟨u, started, sent⟩ := bind_ok_split rest
  exact ⟨counter, u, counted, started, sent⟩

theorem handler_other (other : n ≠ m) (done : vhpetHandler now v m = .ok w) :
    SameSchedule n v w := by
  cases runs : (v.timer m).callout.pending || !(v.timer m).callout.active with
  | true =>
    unfold vhpetHandler at done
    dsimp only at done
    rw [runs, if_pos rfl] at done
    cases done
    exact same_schedule_refl n v
  | false =>
    obtain ⟨counter, u, -, started, sent⟩ := handler_ran done runs
    obtain ⟨t, -, result⟩ := bind_ok_split started
    cases result
    exact schedule_trans (store_schedule other _)
      (schedule_trans (store_schedule other _) (interrupt_schedule sent))

end

section

structure HandlerRun where
  due : Nat
  counter : Nat
  deriving DecidableEq

/-- A periodic timer is next due at the first period that is not over: exactly one period later, if
    the handler is not late by one. The periods are counted from where the timer was due, or from
    the last pass of the counter through that value. -/
structure PeriodAfter (rate : Nat) (run : HandlerRun) (due : Nat) : Prop where
  ahead : run.counter < due
  near : due ≤ run.counter + rate
  next : run.counter < run.due + rate → due = run.due + rate
  grid : ∃ periods, due = run.due + (run.counter - run.due) / 2 ^ 32 * 2 ^ 32 + periods * rate

/-- A one-shot timer whose handler finds the counter elsewhere than at the comparator is next due when
    the counter has come round to it. -/
def PassAfter (run : HandlerRun) (due : Nat) : Prop :=
  (run.counter - run.due) % 2 ^ 32 ≠ 0 →
    run.counter < due ∧ due < run.counter + 2 ^ 32 ∧ ∃ passes, due = run.due + passes * 2 ^ 32

def NextDue (rate : Nat) (run : HandlerRun) (due : Nat) : Prop :=
  if rate = 0 then PassAfter run due else PeriodAfter rate run due

def runsHandler (n : TimerNum) (v : Vhpet) : Event → Bool
  | .callout m => m == n && !(v.timer n).callout.pending && (v.timer n).callout.active
  | _ => false

def handlerRuns (n : TimerNum) : Device → List Event → List HandlerRun
  | _, [] => []
  | d, e :: rest =>
      (if runsHandler n d.vhpet e then [⟨d.vhpet.due n, d.vhpet.position d.now⟩] else []) ++
        match step d e with
        | .ok d' => handlerRuns n d' rest
        | .error _ => []

/-- The callout does not expire before its time, and no write of the guest concerns the timer. -/
def Regular (n : TimerNum) (d : Device) : Event → Prop
  | .expire m => m = n → (d.vhpet.timer n).calloutSbt ≤ d.now
  | .write gpa val size delay =>
      ∀ w, vhpetMmioWrite d.vhpet d.now delay gpa val size = .ok w → SameSchedule n d.vhpet w
  | _ => True

variable {n : TimerNum} {d d' : Device}

theorem next_due {s t : Timer} {counter : BitVec 32} {position due : Nat}
    (read : counter = BitVec.ofNat 32 position) (target : BitVec.ofNat 32 due = s.compval)
    (past : due ≤ position) (put : if s.comprate = 0 then t.compval = s.compval
      else AdjustedAhead s counter t) :
    NextDue s.comprate.toNat ⟨due, position⟩ (position + t.ahead counter) := by
  have gap : (counter - s.compval).toNat = (position - due) % 2 ^ 32 := by
    have whole : BitVec.ofNat 32 position = BitVec.ofNat 32 due + BitVec.ofNat 32 (position - due) := by
      rw [← ofNat_add, Nat.add_sub_cancel' past]
    rw [read, ← target, whole, BitVec.add_comm, BitVec.add_sub_cancel, toNat_ofNat]
  unfold NextDue
  by_cases oneShot : s.comprate = 0
  · rw [if_pos oneShot] at put
    rw [if_pos (by rw [oneShot]; rfl)]
    intro elsewhere
    dsimp only at elsewhere ⊢
    have back : t.ahead counter = (2 ^ 32 - (position - due) % 2 ^ 32) % 2 ^ 32 := by
      unfold Timer.ahead
      rw [put, toNat_sub, ← gap, toNat_sub]
      omega
    refine ⟨by omega, by omega, (position - due) / 2 ^ 32 + 1, ?_⟩
    omega
  · rw [if_neg oneShot] at put
    have some_ : s.comprate.toNat ≠ 0 := fun zero => oneShot (eq_of_toNat_eq zero)
    rw [if_neg some_]
    obtain ⟨distance, least, most⟩ := put
    refine ⟨by dsimp only; omega, by dsimp only; omega, fun onTime => ?_,
      (position - due) % 2 ^ 32 / s.comprate.toNat + 1, ?_⟩
    · dsimp only at onTime ⊢
      rw [gap, Nat.mod_eq_of_lt (by omega), Nat.mod_eq_of_lt (by omega)] at distance
      omega
    · have parts := Nat.div_add_mod' ((position - due) % 2 ^ 32) s.comprate.toNat
      have within := Nat.mod_lt ((position - due) % 2 ^ 32) (Nat.pos_of_ne_zero some_)
      rw [gap] at distance
      rw [Nat.add_mul, Nat.one_mul]
      dsimp only
      omega

structure Stepped (n : TimerNum) (d : Device) (e : Event) (now' : Int) (v' : Vhpet) : Prop where
  aimed : Aimed n now' v'
  rate : (v'.timer n).comprate = (d.vhpet.timer n).comprate
  still : runsHandler n d.vhpet e = false → v'.due n = d.vhpet.due n
  ran : runsHandler n d.vhpet e = true → d.vhpet.due n ≤ d.vhpet.position d.now ∧
    NextDue (d.vhpet.timer n).comprate.toNat ⟨d.vhpet.due n, d.vhpet.position d.now⟩ (v'.due n)

variable {e : Event}

theorem run_reached (aimed : Aimed n d.now d.vhpet) (runs : runsHandler n d.vhpet e = true) :
    d.vhpet.due n ≤ d.vhpet.position d.now := by
  cases e with
  | callout m =>
    simp only [runsHandler, Bool.and_eq_true, Bool.not_eq_true'] at runs
    exact position_mono (aimed.expired runs.2 runs.1.2)
  | elapse | expire | write | read => cases runs

theorem aimed_later {now : Int} {v : Vhpet} (aimed : Aimed n now v) (ticks : Nat) :
    Aimed n (now + ticks) v := by
  obtain ⟨enabled, base, after, target, expired⟩ := aimed
  refine ⟨enabled, by omega, after, target, fun active gone => ?_⟩
  have reached := expired active gone
  omega

theorem schedule_stepped {v' : Vhpet} (aimed : Aimed n d.now d.vhpet)
    (same : SameSchedule n d.vhpet v') (quiet : runsHandler n d.vhpet e = false) :
    Stepped n d e d.now v' := by
  refine ⟨same_aimed aimed same, by rw [same.timer], fun _ => same_due same, fun never => ?_⟩
  rw [quiet] at never
  cases never

theorem expire_stepped {m : TimerNum} (aimed : Aimed n d.now d.vhpet)
    (reached : m = n → (d.vhpet.timer n).calloutSbt ≤ d.now) :
    Stepped n d (.expire m) d.now (d.vhpet.store m { d.vhpet.timer m with
      callout := { (d.vhpet.timer m).callout with pending := false } }) := by
  by_cases own : m = n
  · subst own
    have timer : (d.vhpet.store m { d.vhpet.timer m with
        callout := { (d.vhpet.timer m).callout with pending := false } }).timer m =
          { d.vhpet.timer m with callout := { (d.vhpet.timer m).callout with pending := false } } :=
      update_self ..
    have due : (d.vhpet.store m { d.vhpet.timer m with
        callout := { (d.vhpet.timer m).callout with pending := false } }).due m = d.vhpet.due m := by
      unfold Vhpet.due
      rw [timer]
      rfl
    obtain ⟨enabled, base, after, target, -⟩ := aimed
    refine ⟨⟨enabled, base, ?_, ?_, ?_⟩, ?_, fun _ => due, nofun⟩
    · rw [timer]
      exact after
    · rw [due, timer]
      exact target
    · rw [timer]
      exact fun _ _ => reached rfl
    · rw [timer]
  · exact schedule_stepped aimed (store_schedule (fun same => own same.symm) _) rfl

theorem callout_stepped {m : TimerNum} {w : Vhpet} (aimed : Aimed n d.now d.vhpet)
    (done : vhpetHandler d.now d.vhpet m = .ok w) : Stepped n d (.callout m) d.now w := by
  by_cases own : m = n
  · subst own
    cases runs : (d.vhpet.timer m).callout.pending || !(d.vhpet.timer m).callout.active with
    | true =>
      have quiet : runsHandler m d.vhpet (.callout m) = false := by
        unfold runsHandler
        revert runs
        cases (d.vhpet.timer m).callout.pending <;> cases (d.vhpet.timer m).callout.active <;> simp
      unfold vhpetHandler at done
      dsimp only at done
      rw [runs, if_pos rfl] at done
      cases done
      exact schedule_stepped aimed (same_schedule_refl m _) quiet
    | false =>
      obtain ⟨pending, active⟩ := Bool.or_eq_false_iff.mp runs
      rw [Bool.not_eq_false'] at active
      have reached := position_mono (v := d.vhpet) (aimed.expired active pending)
      obtain ⟨counter, u, counted, started, sent⟩ := handler_ran done runs
      have idle : (d.vhpet.store m { d.vhpet.timer m with
          callout := { (d.vhpet.timer m).callout with active := false } }).timer m =
            { d.vhpet.timer m with
              callout := { (d.vhpet.timer m).callout with active := false } } :=
        update_self ..
      obtain ⟨-, -, read⟩ := counter_position counted
      obtain ⟨restarted, due, rate, put⟩ := started_aimed counted started
      rw [idle] at rate put
      have same : SameSchedule m u w := interrupt_schedule sent
      refine ⟨same_aimed restarted same, by rw [same.timer, rate], fun never => ?_, fun _ => ?_⟩
      · unfold runsHandler at never
        rw [pending, active] at never
        simp at never
      · have next := next_due (s := { d.vhpet.timer m with
          callout := { (d.vhpet.timer m).callout with active := false } }) read aimed.target reached put
        rw [same_due same, due]
        exact ⟨reached, next⟩
  · refine schedule_stepped aimed (handler_other (fun same => own same.symm) done) ?_
    dsimp only [runsHandler]
    rw [beq_false_of_ne own]
    rfl

theorem step_stepped (aimed : Aimed n d.now d.vhpet) (regular : Regular n d e)
    (taken : step d e = .ok d') : Stepped n d e d'.now d'.vhpet := by
  obtain ⟨w, responded, result⟩ := bind_ok_split taken
  cases result
  have stepped : Stepped n d e d.now w := by
    cases e with
    | elapse ticks =>
      cases responded
      exact schedule_stepped aimed (same_schedule_refl n _) rfl
    | expire m =>
      cases responded
      exact expire_stepped aimed regular
    | callout m => exact callout_stepped aimed responded
    | write gpa val size delay => exact schedule_stepped aimed (regular w responded) rfl
    | read gpa size =>
      obtain ⟨data, -, result⟩ := bind_ok_split responded
      cases result
      exact schedule_stepped aimed (same_schedule_refl n _) rfl
  exact ⟨aimed_later stepped.aimed _, stepped.rate, stepped.still, stepped.ran⟩

theorem handler_runs_follow (events : List Event) : ∀ d : Device, Aimed n d.now d.vhpet →
    AlongAttempts step (Regular n) d events →
      (∀ run ∈ handlerRuns n d events, run.due ≤ run.counter) ∧
        (∀ run ∈ (handlerRuns n d events).head?, run.due = d.vhpet.due n) ∧
          (handlerRuns n d events).IsChain fun run next =>
            NextDue (d.vhpet.timer n).comprate.toNat run next.due := by
  induction events with
  | nil =>
    intro d _ _
    exact ⟨fun run never => absurd never not_mem_nil, nofun, .nil⟩
  | cons e rest ih =>
    intro d aimed regular
    unfold handlerRuns
    obtain ⟨here, later⟩ := regular
    cases taken : step d e with
    | error fault =>
      cases runs : runsHandler n d.vhpet e with
      | false => exact ⟨fun _ never => absurd never not_mem_nil, nofun, .nil⟩
      | true =>
        refine ⟨fun run only => ?_, fun run head => ?_, .singleton _⟩
        · rw [List.mem_singleton.mp only]
          exact run_reached aimed runs
        · cases head
          rfl
    | ok d' =>
      rw [taken] at later
      obtain ⟨aimed', rate, still, ran⟩ := step_stepped aimed here taken
      obtain ⟨after, first, follow⟩ := ih d' aimed' later
      rw [rate] at follow
      dsimp only
      cases runs : runsHandler n d.vhpet e with
      | false =>
        rw [still runs] at first
        exact ⟨after, first, follow⟩
      | true =>
        obtain ⟨reached, next⟩ := ran runs
        refine ⟨?_, fun run head => ?_, ?_⟩
        · intro run inside
          rcases List.mem_cons.mp inside with rfl | inside
          · exact reached
          · exact after run inside
        · cases head
          rfl
        · cases runsLeft : handlerRuns n d' rest with
          | nil => exact .singleton _
          | cons run more =>
            rw [runsLeft] at first follow
            refine .cons_cons ?_ follow
            rw [first run rfl]
            exact next

theorem periods_follow {rate : Nat} (runs : List HandlerRun) : ∀ first : Nat,
    (∀ run ∈ runs.head?, run.due = first) →
      runs.IsChain (fun run next => PeriodAfter rate run next.due) →
        (∀ run ∈ runs, run.counter < run.due + rate) →
          ∀ (i : Nat) (run : HandlerRun), runs[i]? = some run → run.due = first + i * rate := by
  induction runs with
  | nil =>
    intro first _ _ _ i run never
    cases never
  | cons a rest ih =>
    intro first head chain onTime i run there
    have start : a.due = first := head a rfl
    cases i with
    | zero =>
      cases there
      rw [Nat.zero_mul, Nat.add_zero, start]
    | succ i =>
      have next : ∀ b ∈ rest.head?, b.due = first + rate := by
        intro b second
        cases rest with
        | nil => cases second
        | cons c more =>
          cases second
          rw [← start]
          exact (List.isChain_cons_cons.mp chain).1.next (onTime a mem_cons_self)
      have later := ih (first + rate) next chain.tail
        (fun b inside => onTime b (mem_cons_of_mem a inside)) i run there
      rw [later, Nat.add_mul, Nat.one_mul]
      omega

def HandlerRun.pass (base : Nat) (run : HandlerRun) : Nat := (run.counter - base) / 2 ^ 32

theorem passes_follow (base : Nat) (runs : List HandlerRun) : ∀ k : Nat,
    (∀ run ∈ runs.head?, run.due = base + k * 2 ^ 32) →
      runs.IsChain (fun run next => PassAfter run next.due) →
        (∀ run ∈ runs, run.due ≤ run.counter ∧ (run.counter - run.due) % 2 ^ 32 ≠ 0) →
          runs.Pairwise (fun a b => a.pass base < b.pass base) ∧
            ∀ run ∈ runs, k ≤ run.pass base := by
  induction runs with
  | nil => exact fun k _ _ _ => ⟨.nil, fun run never => absurd never not_mem_nil⟩
  | cons a rest ih =>
    intro k head chain each
    have start : a.due = base + k * 2 ^ 32 := head a rfl
    obtain ⟨reached, elsewhere⟩ := each a mem_cons_self
    have own : k ≤ a.pass base := by
      unfold HandlerRun.pass
      omega
    cases rest with
    | nil =>
      refine ⟨pairwise_singleton _ _, fun run only => ?_⟩
      rw [List.mem_singleton.mp only]
      exact own
    | cons b more =>
      obtain ⟨next, follow⟩ := List.isChain_cons_cons.mp chain
      obtain ⟨past, -, passes, due⟩ := next elsewhere
      have second : b.due = base + (k + passes) * 2 ^ 32 := by
        omega
      obtain ⟨apart, later⟩ := ih (k + passes) (fun run first => by cases first; exact second)
        follow (fun run inside => each run (mem_cons_of_mem a inside))
      have before : a.pass base < k + passes := by
        unfold HandlerRun.pass
        omega
      refine ⟨List.pairwise_cons.mpr ⟨fun run inside => ?_, apart⟩, fun run inside => ?_⟩
      · exact Nat.lt_of_lt_of_le before (later run inside)
      · rcases List.mem_cons.mp inside with rfl | inside
        · exact own
        · exact Nat.le_trans (Nat.le_add_right k passes) (later run inside)

/-- The runs of a handler: each at or after the value at which its timer was due. Those of a periodic
    timer are one in each period as long as none is a period late, and otherwise go on with the first
    period that is not over; those of a one-shot timer that find the counter elsewhere than at the
    comparator are each in a pass of their own. -/
structure RunsRight (rate first : Nat) (runs : List HandlerRun) : Prop where
  reached : ∀ run ∈ runs, run.due ≤ run.counter
  periodic : rate ≠ 0 → runs.IsChain fun run next => PeriodAfter rate run next.due
  onTime : rate ≠ 0 → (∀ run ∈ runs, run.counter < run.due + rate) →
    ∀ (i : Nat) (run : HandlerRun), runs[i]? = some run → run.due = first + i * rate
  oneShot : rate = 0 → (∀ run ∈ runs, (run.counter - run.due) % 2 ^ 32 ≠ 0) →
    runs.Pairwise fun a b => a.pass first < b.pass first

theorem chain_right {rate first : Nat} {runs : List HandlerRun}
    (reached : ∀ run ∈ runs, run.due ≤ run.counter) (head : ∀ run ∈ runs.head?, run.due = first)
    (chain : runs.IsChain fun run next => NextDue rate run next.due) : RunsRight rate first runs := by
  have periods : rate ≠ 0 → runs.IsChain fun run next => PeriodAfter rate run next.due := by
    intro some_
    refine chain.imp fun a b next => ?_
    unfold NextDue at next
    rwa [if_neg some_] at next
  have passes : rate = 0 → runs.IsChain fun run next => PassAfter run next.due := by
    intro none_
    refine chain.imp fun a b next => ?_
    unfold NextDue at next
    rwa [if_pos none_] at next
  refine ⟨reached, periods, fun some_ onTime => ?_, fun none_ elsewhere => ?_⟩
  · exact periods_follow runs first head (periods some_) onTime
  · have start : ∀ run ∈ runs.head?, run.due = first + 0 * 2 ^ 32 := fun run here => by
      rw [head run here, Nat.zero_mul, Nat.add_zero]
    exact (passes_follow first runs 0 start (passes none_)
      fun run inside => ⟨reached run inside, elsewhere run inside⟩).1

/-- The arithmetic of the comparators, and what follows for the runs of a handler from the start of
    its timer on, as long as the guest does not reprogram it. -/
structure ComparatorsRight : Prop where
  adjusts : ∀ (t : Timer) (counter : BitVec 32), t.comprate ≠ 0 →
    ∃ u, vhpetAdjustCompval t counter = .ok u ∧ AdjustedAhead t counter u
  arms : ∀ (v w : Vhpet) (n : TimerNum) (counter : BitVec 32) (now : Int),
    vhpetStartTimer v n counter now = .ok w → Armed counter now (w.timer n)
  follows : ∀ (v w : Vhpet) (n : TimerNum) (counter : BitVec 32) (now : Int) (events : List Event),
    vhpetCounter now v true = .ok counter → vhpetStartTimer v n counter now = .ok w →
      AlongAttempts step (Regular n) ⟨w, now⟩ events →
        RunsRight (v.timer n).comprate.toNat (w.due n) (handlerRuns n ⟨w, now⟩ events)

theorem comparators_right : ComparatorsRight := by
  refine ⟨fun t counter periodic => ?_, fun v w n counter now started => start_armed started, ?_⟩
  · obtain ⟨u, adjusted, -, ahead⟩ := @adjusted_ahead t counter periodic
    exact ⟨u, adjusted, ahead⟩
  · intro v w n counter now events counted started regular
    obtain ⟨aimed, -, rate, -⟩ := started_aimed counted started
    obtain ⟨reached, head, follow⟩ := handler_runs_follow events ⟨w, now⟩ aimed regular
    rw [← rate]
    exact chain_right reached head follow

def counting (t : Timer) : Vhpet := ⟨1, 0, 0, 0, fun _ => t, []⟩

def tenTicks : Timer := ⟨0, 0, 0, 10, ⟨false, false⟩, 0⟩

def firstTimer : TimerNum := ⟨0, by decide⟩

def started (t : Timer) : Vhpet :=
  (vhpetStartTimer (counting t) firstTimer 0 0).toOption.getD (counting t)

def handledAfter (ticks : Nat) : List Event :=
  [.elapse (ticks * 256), .expire firstTimer, .callout firstTimer]

theorem period_skipped :
    ¬∀ (v w : Vhpet) (n : TimerNum) (counter : BitVec 32) (now : Int) (events : List Event),
      vhpetCounter now v true = .ok counter → vhpetStartTimer v n counter now = .ok w →
        AlongAttempts step (Regular n) ⟨w, now⟩ events → (v.timer n).comprate ≠ 0 →
          ∀ (i : Nat) (run : HandlerRun), (handlerRuns n ⟨w, now⟩ events)[i]? = some run →
            run.due = w.due n + i * (v.timer n).comprate.toNat := by
  intro every
  have second := every (counting tenTicks) (started tenTicks) firstTimer 0 0
    (handledAfter 25 ++ handledAfter 10) rfl rfl
    ⟨trivial, fun _ => by decide, trivial, trivial, fun _ => by decide, trivial, trivial⟩ (by decide)
    1 ⟨30, 35⟩ (by decide)
  exact absurd second (by decide)

example : handlerRuns firstTimer ⟨started ⟨0, 0, 5, 0, ⟨false, false⟩, 0⟩, 0⟩
    (handledAfter 5 ++ handledAfter 0) = [⟨5, 5⟩, ⟨5, 5⟩] := by decide

end

end Hpet
