import Bhyve.Lib.Fallible
import Bhyve.Pit.Division
import Mathlib.Algebra.Group.Nat.Defs

/-!
The programming of channel 0. Beside the timer stand the byte of a count that is not complete,
the ticks of the last count and the deadline that they give.
-/
namespace Pit
open Fallible StepRuns Function

def tick : Bintime := ⟨0, freqFrac⟩

def Bintime.after (bt : Bintime) : Nat → Bintime
  | 0 => bt
  | ticks + 1 => (bt.after ticks).add tick

theorem add_parts (bt : Bintime) {x y : BitVec 64} (fits : x.toNat + y.toNat < 2 ^ 64) :
    (bt.add ⟨0, x⟩).add ⟨0, y⟩ = bt.add ⟨0, x + y⟩ := by
  unfold Bintime.add
  dsimp only
  rw [BitVec.add_assoc bt.frac x y]
  congr 1
  split <;> split <;> split <;> bv_omega

theorem add_nothing (bt : Bintime) : bt.add ⟨0, 0⟩ = bt := by
  unfold Bintime.add
  simp

theorem after_ticks (bt : Bintime) {ticks : Nat} (small : ticks < 2 ^ 16) :
    bt.add ⟨0, freqFrac * BitVec.ofNat 64 ticks⟩ = bt.after ticks := by
  induction ticks with
  | zero =>
    exact add_nothing bt
  | succ ticks ih =>
    have first : freqFrac.toNat = 15460126010708 := by decide
    have product : (freqFrac * BitVec.ofNat 64 ticks).toNat = 15460126010708 * ticks := by
      rw [BitVec.toNat_mul, first, BitVec.toNat_ofNat, Nat.mod_eq_of_lt (by omega),
        Nat.mod_eq_of_lt (by omega)]
    have fits : (freqFrac * BitVec.ofNat 64 ticks).toNat + freqFrac.toNat < 2 ^ 64 := by
      omega
    rw [Bintime.after, ← ih (Nat.lt_of_succ_lt small), tick, add_parts bt fits, BitVec.ofNat_add,
      BitVec.mul_add, BitVec.mul_one]

section

structure SameTimer (c c' : Channel) : Prop where
  cr : c'.cr = c.cr
  crbyte : c'.crbyte = c.crbyte
  callout : c'.callout = c.callout
  calloutBt : c'.calloutBt = c.calloutBt
  initial : c.initial ≠ 0 → c'.initial = c.initial

def SameTimers (s s' : Vatpit) : Prop := ∀ n, SameTimer (s.channel n) (s'.channel n)

theorem same_timer_refl (c : Channel) : SameTimer c c := ⟨rfl, rfl, rfl, rfl, fun _ => rfl⟩

theorem same_timers_refl (s : Vatpit) : SameTimers s s := fun n => same_timer_refl (s.channel n)

variable {s s' : Vatpit} {n : Fin 3}

theorem same_timers_trans {s'' : Vatpit} (first : SameTimers s s') (second : SameTimers s' s'') :
    SameTimers s s'' := by
  intro n
  obtain ⟨cr, crbyte, callout, calloutBt, initial⟩ := first n
  obtain ⟨cr', crbyte', callout', calloutBt', initial'⟩ := second n
  refine ⟨cr'.trans cr, crbyte'.trans crbyte, callout'.trans callout, calloutBt'.trans calloutBt, ?_⟩
  intro counted
  have same := initial counted
  exact (initial' (by rwa [same])).trans same

theorem same_timers_set (same : SameTimers s s') (n : Fin 3) {c : Channel}
    (kept : SameTimer (s'.channel n) c) : SameTimers s (s'.set n c) := by
  apply same_timers_trans same
  intro m
  by_cases own : m = n
  · subst own
    rwa [set_channel]
  · rw [set_other s' own]
    exact same_timer_refl _

theorem get_out_channels {out : Bool} (done : vatpitGetOut s n = .ok (out, s')) :
    s'.channel = s.channel := by
  by_cases defined : OutputDefined (s.channel n)
  · obtain ⟨out', s'', done', channels⟩ := get_out_ok defined
    rw [done] at done'
    cases done'
    exact channels
  · rw [get_out_traps defined] at done
    cases done

theorem repaired_timers (s : Vatpit) (n : Fin 3) : SameTimers s (countRepaired s n) := by
  unfold countRepaired
  by_cases empty : (s.channel n).initial = 0
  · rw [if_pos empty]
    exact same_timers_set (same_timers_refl s) n
      ⟨rfl, rfl, rfl, rfl, fun counted => absurd empty counted⟩
  · rw [if_neg empty]
    exact same_timers_refl s

theorem update_counter_timers {latch : Bool} {lval : BitVec 16}
    (done : pitUpdateCounter s n latch = .ok (lval, s')) : SameTimers s s' := by
  rcases ite_split done with ⟨-, full⟩ | ⟨-, counted⟩
  · cases full
    exact same_timers_refl s
  · obtain ⟨lval', -, result⟩ := bind_ok_split counted
    cases result
    have looked := repaired_timers s n
    cases latch with
    | false => exact looked
    | true => exact same_timers_set looked n ⟨rfl, rfl, rfl, rfl, fun _ => rfl⟩

theorem readback1_timers {cmd : BitVec 8} (done : pitReadback1 s n cmd = .ok s') :
    SameTimers s s' := by
  obtain ⟨s1, counted, read⟩ := bind_ok_split done
  have first : SameTimers s s1 := by
    rcases ite_split counted with ⟨-, latched⟩ | ⟨-, same⟩
    · obtain ⟨r, updated, result⟩ := bind_ok_split latched
      cases result
      exact update_counter_timers updated
    · cases same
      exact same_timers_refl _
  apply same_timers_trans first
  rcases ite_split read with ⟨-, asked⟩ | ⟨-, same⟩
  · have marked : SameTimers s1 (s1.set n { s1.channel n with slatched := true }) :=
      same_timers_set (same_timers_refl s1) n ⟨rfl, rfl, rfl, rfl, fun _ => rfl⟩
    rcases ite_split asked with ⟨-, looked⟩ | ⟨-, result⟩
    · obtain ⟨r, output, result⟩ := bind_ok_split looked
      cases result
      have channels := get_out_channels output
      have looked : SameTimers s1 r.2 := fun m => by
        rw [channels]
        exact marked m
      apply same_timers_set looked
      rw [channels]
      exact ⟨rfl, rfl, rfl, rfl, fun _ => rfl⟩
    · cases result
      exact same_timers_set marked n ⟨rfl, rfl, rfl, rfl, fun _ => rfl⟩
  · cases same
    exact same_timers_refl _

theorem readback_if_timers {cmd : BitVec 8} {chosen : Bool}
    (done : readbackIf chosen s n cmd = .ok s') : SameTimers s s' := by
  cases chosen with
  | true => exact readback1_timers done
  | false =>
    cases done
    exact same_timers_refl s

theorem update_mode_timers {val : BitVec 8} {error : Int}
    (done : vatpitUpdateMode s val = .ok (error, s')) : SameTimers s s' := by
  rcases ite_split done with ⟨-, readback⟩ | ⟨-, rest⟩
  · obtain ⟨s3, stages, result⟩ := bind_ok_split readback
    cases result
    obtain ⟨s1, first, stages⟩ := bind_ok_split stages
    obtain ⟨s2, second, third⟩ := bind_ok_split stages
    exact same_timers_trans (readback_if_timers first)
      (same_timers_trans (readback_if_timers second) (readback_if_timers third))
  rcases ite_split rest with ⟨-, refused⟩ | ⟨-, rest⟩
  · cases refused
    exact same_timers_refl s
  rcases ite_split rest with ⟨-, refused⟩ | ⟨-, rest⟩
  · cases refused
    exact same_timers_refl s
  rcases ite_split rest with ⟨-, latch⟩ | ⟨-, mode⟩
  · obtain ⟨r, latched, result⟩ := bind_ok_split latch
    cases result
    exact update_counter_timers latched
  · cases mode
    exact same_timers_set (same_timers_refl s) _ ⟨rfl, rfl, rfl, rfl, fun _ => rfl⟩

theorem counter_read_timers {eax : BitVec 32} (done : counterRead s n = .ok (eax, s')) :
    SameTimers s s' := by
  rcases ite_split done with ⟨-, status⟩ | ⟨-, rest⟩
  · cases status
    exact same_timers_set (same_timers_refl s) n ⟨rfl, rfl, rfl, rfl, fun _ => rfl⟩
  rcases ite_split rest with ⟨-, running⟩ | ⟨-, latched⟩
  · obtain ⟨r, counted, result⟩ := bind_ok_split running
    cases result
    exact same_timers_set (update_counter_timers counted) n ⟨rfl, rfl, rfl, rfl, fun _ => rfl⟩
  · cases latched
    exact same_timers_set (same_timers_refl s) n ⟨rfl, rfl, rfl, rfl, fun _ => rfl⟩

end

/-- The ticks of a count; 0 is the largest one. -/
def ticksOf (count : BitVec 16) : Nat := if count = 0 then 65535 else count.toNat

def deadlineAfter (base : Bintime) (ticks : Nat) (now : Bintime) : Bintime :=
  if (base.after ticks).before now then now.after ticks else base.after ticks

def armedFor (deadline : Bintime) : Callout := ⟨true, true, deadline.toSbt⟩

theorem start_armed {s : Vatpit} (counted : (s.channel channel0).initial ≠ 0) :
    (pitTimerStartCntr0 s).channel channel0 = { s.channel channel0 with
      calloutBt := deadlineAfter (s.channel channel0).calloutBt
        (s.channel channel0).initial.toNat (s.clock 0)
      callout := armedFor (deadlineAfter (s.channel channel0).calloutBt
        (s.channel channel0).initial.toNat (s.clock 0)) } := by
  have ticks : ∀ bt : Bintime, bt.add ⟨0, freqFrac * (s.channel channel0).initial.setWidth 64⟩ =
      bt.after (s.channel channel0).initial.toNat := by
    intro bt
    rw [← after_ticks bt (s.channel channel0).initial.isLt]
    congr 3
    bv_omega
  unfold pitTimerStartCntr0 deadlineAfter armedFor binuptime
  rw [if_pos counted, set_channel, ticks, ticks]

def countOf (low high : BitVec 8) : BitVec 16 := BitVec.ofNat 16 (low.toNat + 256 * high.toNat)

theorem count_of_bytes (low high : BitVec 8) :
    low.setWidth 16 ||| high.setWidth 16 <<< 8 = countOf low high := by
  have joined : high.toNat <<< 8 + low.toNat = high.toNat <<< 8 ||| low.toNat :=
    Nat.shiftLeft_add_eq_or_of_lt low.isLt high.toNat
  apply BitVec.eq_of_toNat_eq
  simp only [countOf, BitVec.toNat_or, BitVec.toNat_setWidth, BitVec.toNat_shiftLeft,
    BitVec.toNat_ofNat]
  rw [Nat.mod_eq_of_lt (by omega), Nat.mod_eq_of_lt (by omega), Nat.mod_eq_of_lt (by omega),
    Nat.or_comm, ← joined]
  omega

theorem set_again (s : Vatpit) (n : Fin 3) (c c' : Channel) : (s.set n c).set n c' = s.set n c' := by
  unfold Vatpit.set
  rw [update_idem]

def Channel.loaded (c : Channel) (count : BitVec 16) (now : Bintime) : Channel :=
  { c with status := c.status &&& ~~~timerStsNullCnt, frbyte := false, crbyte := 0, initial := count
           nowBt := now, calloutBt := now }

theorem loaded_starts {s : Vatpit} {low high : BitVec 8} (first : (s.channel channel0).cr 0 = low)
    (second : (s.channel channel0).cr 1 = high) (counted : countOf low high ≠ 0) :
    countLoaded s channel0 = pitTimerStartCntr0
      ((binuptime s).2.set channel0
        ((s.channel channel0).loaded (countOf low high) (s.clock 0))) := by
  unfold countLoaded
  dsimp only
  rw [first, second, count_of_bytes, if_neg counted, if_pos rfl, set_channel, set_again]
  rfl

theorem counter_write_other (s : Vatpit) {n : Fin 3} (apart : channel0 ≠ n) (eax : BitVec 32) :
    (counterWrite s n eax).channel channel0 = s.channel channel0 := by
  have other : ¬n = channel0 := fun same => apart same.symm
  unfold counterWrite countLoaded binuptime
  dsimp only
  split
  · split
    · rw [set_other _ apart, set_other _ apart]
      exact set_other _ apart _
    · rw [set_other _ apart]
      exact set_other _ apart _
  · exact set_other _ apart _

section

/-- The timer with the byte of a count that is not complete, the ticks of the last count that is, and
    the deadline that they give. -/
structure Programmed where
  pit : Vatpit
  half : Option (BitVec 8)
  ticks : Nat
  deadline : Bintime

def countByte : Access → Option (BitVec 8)
  | .timer false (.cntr n) bytes eax => if bytes = 1 ∧ n = channel0 then some (eax.setWidth 8) else none
  | _ => none

def setsMode (n : Fin 3) : Access → Bool
  | .timer false .mode bytes eax =>
      let val := eax.setWidth 8
      let mode := val &&& 0x0f
      bytes == 1 && val &&& 0xc0 != timerSelReadback && selected val == n &&
        val &&& 0x30 == timer16Bit &&
        (mode == timerIntTc || mode == timerRateGen || mode == timerSqWave || mode == timerSwStrobe)
  | _ => false

def Programmed.count (s : Programmed) (access : Access) : Option (BitVec 16) :=
  match s.half, countByte access with
  | some low, some high => some (countOf low high)
  | _, _ => none

def Programmed.halfAfter (s : Programmed) (access : Access) : Option (BitVec 8) :=
  match s.half, countByte access with
  | some _, some _ => none
  | none, some low => some low
  | half, none => if setsMode channel0 access then none else half

def Programmed.expires (s : Programmed) : Access → Bool
  | .callout =>
      let c := s.pit.channel channel0
      !c.callout.pending && c.callout.active && (c.mode == timerRateGen || c.mode == timerSqWave)
  | _ => false

/-- A count runs from the reading of the clock with it; the reading after that tells what has passed.
    In a mode that repeats the next deadline follows the last one. -/
def Programmed.step (s : Programmed) (access : Access) : Except Trap Programmed := do
  let pit ← Pit.step s.pit access
  let half := s.halfAfter access
  match s.count access with
  | some count =>
      let ticks := ticksOf count
      .ok ⟨pit, half, ticks, deadlineAfter (s.pit.clock 0) ticks (s.pit.clock 1)⟩
  | none =>
      if s.expires access then
        .ok ⟨pit, half, s.ticks, deadlineAfter s.deadline s.ticks (s.pit.clock 0)⟩
      else .ok ⟨pit, half, s.ticks, s.deadline⟩

def Programmed.Arms (s : Programmed) (access : Access) : Prop :=
  ∀ s', s.step access = .ok s' → s.count access ≠ none ∨ s.expires access = true →
    (s'.pit.channel channel0).callout = armedFor s'.deadline

/-- The count is not zero, and no mode word stands between its two bytes. -/
structure Programmed.Plain (s : Programmed) (access : Access) : Prop where
  notZero : s.count access ≠ some 0
  whole : setsMode channel0 access = true → s.half = none

def Programmed.start (clock : Nat → Bintime) : Programmed := ⟨vatpitInit clock, none, 0, ⟨0, 0⟩⟩

structure Timed (c : Channel) (half : Option (BitVec 8)) (ticks : Nat) (deadline : Bintime) : Prop where
  empty : half = none → c.crbyte = 0
  first : ∀ low, half = some low → c.crbyte = 1 ∧ c.cr 0 = low
  counted : c.callout.active = true → c.initial ≠ 0 ∧ c.initial.toNat = ticks
  armed : c.callout.active = true → c.calloutBt = deadline ∧ c.callout.sbt = deadline.toSbt

variable {c c' : Channel} {half : Option (BitVec 8)} {ticks : Nat} {deadline : Bintime}

theorem timed_same (timed : Timed c half ticks deadline) (same : SameTimer c c') :
    Timed c' half ticks deadline := by
  obtain ⟨empty, first, counted, armed⟩ := timed
  obtain ⟨cr, crbyte, callout, calloutBt, initial⟩ := same
  refine ⟨?_, ?_, ?_, ?_⟩
  · rwa [crbyte]
  · rwa [crbyte, cr]
  · intro active
    rw [callout] at active
    obtain ⟨some_, same⟩ := counted active
    rw [initial some_]
    exact ⟨some_, same⟩
  · rwa [callout, calloutBt]

theorem start_timed (clock : Nat → Bintime) : Timed ((vatpitInit clock).channel channel0) none 0 ⟨0, 0⟩ :=
  ⟨fun _ => rfl, nofun, nofun,
    nofun⟩

variable {s : Vatpit} {access : Access}

theorem other_same {s' : Vatpit} (done : step s access = .ok s') (read : countByte access = none)
    (still : access ≠ .callout) (kept : access ≠ .expire) :
    SameTimer (s.channel channel0) (s'.channel channel0) := by
  cases access with
  | callout => exact absurd rfl still
  | expire => exact absurd rfl kept
  | speaker isIn eax =>
    obtain ⟨r, handled, result⟩ := bind_ok_split done
    cases result
    rcases ite_split handled with ⟨-, input⟩ | ⟨-, output⟩
    · obtain ⟨r, out, result⟩ := bind_ok_split input
      cases result
      rw [get_out_channels out]
      exact same_timer_refl _
    · cases output
      exact same_timer_refl _
  | timer isIn port bytes eax =>
    obtain ⟨r, handled, result⟩ := bind_ok_split done
    cases result
    rcases ite_split handled with ⟨-, refused⟩ | ⟨single, handled⟩
    · cases refused
      exact same_timer_refl _
    cases port with
    | mode =>
      rcases ite_split handled with ⟨-, refused⟩ | ⟨-, set⟩
      · cases refused
        exact same_timer_refl _
      · obtain ⟨r, updated, result⟩ := bind_ok_split set
        cases result
        exact update_mode_timers updated channel0
    | cntr n =>
      rcases ite_split handled with ⟨-, input⟩ | ⟨output, written⟩
      · obtain ⟨r, read, result⟩ := bind_ok_split input
        cases result
        exact counter_read_timers read channel0
      · cases written
        have apart : channel0 ≠ n := by
          rintro rfl
          rw [Bool.not_eq_true] at output
          subst output
          simp [countByte, Classical.not_not.mp single] at read
        rw [counter_write_other s apart]
        exact same_timer_refl _

theorem counter_write_byte {s' : Vatpit} {byte : BitVec 8} (done : step s access = .ok s')
    (written : countByte access = some byte) :
    ∃ eax, eax.setWidth 8 = byte ∧ s' = counterWrite s channel0 eax := by
  cases access with
  | timer isIn port bytes eax =>
    cases isIn with
    | true => cases written
    | false =>
      cases port with
      | mode => cases written
      | cntr n =>
        unfold countByte at written
        dsimp only at written
        by_cases own : bytes = 1 ∧ n = channel0
        · obtain ⟨single, rfl⟩ := own
          subst single
          refine ⟨eax, Option.some.inj written, ?_⟩
          cases done
          rfl
        · rw [if_neg own] at written
          cases written
  | speaker => cases written
  | expire => cases written
  | callout => cases written

theorem first_byte_timed (timed : Timed (s.channel channel0) none ticks deadline) (eax : BitVec 32) :
    Timed ((counterWrite s channel0 eax).channel channel0) (some (eax.setWidth 8)) ticks deadline := by
  obtain ⟨empty, -, counted, armed⟩ := timed
  have byte : update (s.channel channel0).cr 0 (eax.setWidth 8) 0 = eax.setWidth 8 :=
    update_self 0 _ _
  unfold counterWrite
  dsimp only
  rw [empty rfl, if_neg (by decide), set_channel]
  refine ⟨nofun, ?_, counted, armed⟩
  rintro low ⟨⟩
  exact ⟨rfl, byte⟩

theorem second_byte_armed {low : BitVec 8}
    (timed : Timed (s.channel channel0) (some low) ticks deadline) (eax : BitVec 32)
    (counted : countOf low (eax.setWidth 8) ≠ 0) :
    ((counterWrite s channel0 eax).channel channel0).crbyte = 0 ∧
      ((counterWrite s channel0 eax).channel channel0).initial = countOf low (eax.setWidth 8) ∧
      ((counterWrite s channel0 eax).channel channel0).calloutBt =
        deadlineAfter (s.clock 0) (ticksOf (countOf low (eax.setWidth 8))) (s.clock 1) ∧
      ((counterWrite s channel0 eax).channel channel0).callout =
        armedFor (deadlineAfter (s.clock 0) (ticksOf (countOf low (eax.setWidth 8))) (s.clock 1)) := by
  obtain ⟨crbyte, cr⟩ := timed.first low rfl
  have ticks : ticksOf (countOf low (eax.setWidth 8)) = (countOf low (eax.setWidth 8)).toNat :=
    if_neg counted
  have kept : update (s.channel channel0).cr 1 (eax.setWidth 8) 0 = low :=
    (update_of_ne (by decide) _ _).trans cr
  have byte : update (s.channel channel0).cr 1 (eax.setWidth 8) 1 = eax.setWidth 8 :=
    update_self 1 _ _
  unfold counterWrite
  dsimp only
  rw [crbyte, if_pos rfl]
  generalize whole : s.set channel0 _ = s1
  have own : s1.channel channel0 = { s.channel channel0 with
      cr := update (s.channel channel0).cr 1 (eax.setWidth 8), crbyte := 2 } := by
    rw [← whole, set_channel]
  have clock : s1.clock = s.clock := by rw [← whole]; rfl
  have first : (s1.channel channel0).cr 0 = low := by rw [own]; exact kept
  have second : (s1.channel channel0).cr 1 = eax.setWidth 8 := by rw [own]; exact byte
  rw [loaded_starts first second counted, start_armed (by rw [set_channel]; exact counted), ticks]
  exact ⟨rfl, rfl, by rw [← clock]; rfl, by rw [← clock]; rfl⟩

theorem armed_timed {next : Channel} {low : Option (BitVec 8)}
    (empty : low = none → next.crbyte = 0)
    (first : ∀ byte, low = some byte → next.crbyte = 1 ∧ next.cr 0 = byte)
    (counted : next.initial ≠ 0) (same : next.initial.toNat = ticks)
    (target : next.calloutBt = deadline) (armed : next.callout = armedFor deadline) :
    Timed next low ticks deadline :=
  ⟨empty, first, fun _ => ⟨counted, same⟩, fun _ => ⟨target, by rw [armed]; rfl⟩⟩

theorem expiry_armed {s : Programmed}
    (timed : Timed (s.pit.channel channel0) s.half s.ticks s.deadline)
    (expires : s.expires .callout = true) :
    (vatpitCalloutHandler s.pit).channel channel0 = { s.pit.channel channel0 with
      calloutBt := deadlineAfter s.deadline s.ticks (s.pit.clock 0)
      callout := armedFor (deadlineAfter s.deadline s.ticks (s.pit.clock 0)) } := by
  unfold Programmed.expires at expires
  simp only [Bool.and_eq_true, Bool.not_eq_true', Bool.or_eq_true, beq_iff_eq] at expires
  obtain ⟨⟨pending, active⟩, repeats⟩ := expires
  obtain ⟨some_, same⟩ := timed.counted active
  obtain ⟨target, -⟩ := timed.armed active
  unfold vatpitCalloutHandler
  dsimp only
  rw [pending, active, if_neg (by decide), if_pos repeats, start_armed]
  · simp only [set_channel, target, same]
    rfl
  · exact some_

theorem quiet_expiry {s : Programmed} (quiet : ¬s.expires .callout = true) :
    (vatpitCalloutHandler s.pit).channel channel0 = s.pit.channel channel0 ∨
      (vatpitCalloutHandler s.pit).channel channel0 = { s.pit.channel channel0 with
        callout := { (s.pit.channel channel0).callout with active := false } } := by
  unfold Programmed.expires at quiet
  simp only [Bool.and_eq_true, Bool.not_eq_true', Bool.or_eq_true, beq_iff_eq] at quiet
  unfold vatpitCalloutHandler
  dsimp only
  by_cases due : ((s.pit.channel channel0).callout.pending || !(s.pit.channel channel0).callout.active) = true
  · rw [if_pos due]
    exact .inl rfl
  · rw [if_neg due]
    simp only [Bool.or_eq_true, Bool.not_eq_true', not_or, Bool.not_eq_true, Bool.not_eq_false] at due
    rw [if_neg fun repeats => quiet ⟨due, repeats⟩]
    exact .inr (set_channel s.pit channel0 _)

theorem timed_idle (timed : Timed c half ticks deadline) :
    Timed { c with callout := { c.callout with active := false } } half ticks deadline :=
  ⟨timed.empty, timed.first, nofun, nofun⟩

theorem step_programmed {s s' : Programmed}
    (timed : Timed (s.pit.channel channel0) s.half s.ticks s.deadline) (plain : s.Plain access)
    (done : s.step access = .ok s') : Timed (s'.pit.channel channel0) s'.half s'.ticks s'.deadline ∧
      (s.count access ≠ none ∨ s.expires access = true →
        (s'.pit.channel channel0).callout = armedFor s'.deadline) := by
  obtain ⟨pit, stepped, result⟩ := bind_ok_split done
  cases read : countByte access with
  | some byte =>
    obtain ⟨eax, rfl, rfl⟩ := counter_write_byte stepped read
    have quiet : s.expires access = false := by
      cases access with
      | callout => cases read
      | timer | speaker | expire => rfl
    cases half : s.half with
    | none =>
      have count : s.count access = none := by
        unfold Programmed.count
        rw [half]
      have after : s.halfAfter access = some (eax.setWidth 8) := by
        unfold Programmed.halfAfter
        rw [half, read]
      rw [count, quiet, after] at result
      cases result
      rw [half] at timed
      refine ⟨first_byte_timed timed eax, ?_⟩
      rintro (never | never)
      · exact absurd count never
      · rw [quiet] at never
        cases never
    | some low =>
      have count : s.count access = some (countOf low (eax.setWidth 8)) := by
        unfold Programmed.count
        rw [half, read]
      have after : s.halfAfter access = none := by
        unfold Programmed.halfAfter
        rw [half, read]
      have counted : countOf low (eax.setWidth 8) ≠ 0 := by
        intro zero
        rw [zero] at count
        exact plain.notZero count
      rw [count, after] at result
      cases result
      rw [half] at timed
      obtain ⟨empty, initial, target, armed⟩ := second_byte_armed timed eax counted
      refine ⟨armed_timed (fun _ => empty) nofun ?_ ?_ target armed,
        fun _ => armed⟩
      · rw [initial]
        exact counted
      · rw [initial]
        exact (if_neg counted).symm
  | none =>
    have count : s.count access = none := by
      unfold Programmed.count
      rw [read]
      cases s.half <;> rfl
    have after : s.halfAfter access = s.half := by
      unfold Programmed.halfAfter
      rw [read]
      by_cases sets : setsMode channel0 access = true
      · rw [plain.whole sets, sets]
        rfl
      · cases s.half with
        | none => exact if_neg sets
        | some low => exact if_neg sets
    rw [count, after] at result
    dsimp only at result
    by_cases expires : s.expires access = true
    · rw [if_pos expires] at result
      cases result
      cases access with
      | timer | speaker | expire => cases expires
      | callout =>
        cases stepped
        have own := expiry_armed timed expires
        have active : (s.pit.channel channel0).callout.active = true := by
          unfold Programmed.expires at expires
          simp only [Bool.and_eq_true] at expires
          exact expires.1.2
        obtain ⟨some_, same⟩ := timed.counted active
        rw [own]
        exact ⟨armed_timed timed.empty timed.first some_ same rfl rfl, fun _ => rfl⟩
    · rw [if_neg expires] at result
      cases result
      refine ⟨?_, fun either => ?_⟩
      · cases access with
        | callout =>
          cases stepped
          dsimp only
          rcases quiet_expiry expires with same | idle
          · rw [same]
            exact timed
          · rw [idle]
            exact timed_idle timed
        | expire =>
          cases stepped
          dsimp only
          rw [set_channel]
          exact ⟨timed.empty, timed.first, timed.counted, timed.armed⟩
        | timer isIn port bytes eax =>
          exact timed_same timed (other_same stepped read (by rintro ⟨⟩) (by rintro ⟨⟩))
        | speaker isIn eax =>
          exact timed_same timed (other_same stepped read (by rintro ⟨⟩) (by rintro ⟨⟩))
      · rcases either with never | never
        · exact absurd count never
        · exact absurd never expires

/-- In every run whose counts are plain. -/
theorem channel_0_armed (clock : Nat → Bintime) (accesses : List Access)
    (plain : AlongAttempts Programmed.step Programmed.Plain (Programmed.start clock) accesses) :
    AlongAttempts Programmed.step Programmed.Arms (Programmed.start clock) accesses :=
  along_attempts_of_invariant
    (fun _ _ _ timed plain done => (step_programmed timed plain done).1)
    (fun _ _ timed plain _ done => (step_programmed timed plain done).2)
    accesses _ (start_timed clock) plain

instance decidablePlain (s : Programmed) (access : Access) : Decidable (s.Plain access) :=
  decidable_of_iff (_ ∧ _) ⟨fun ⟨a, b⟩ => ⟨a, b⟩, fun ⟨a, b⟩ => ⟨a, b⟩⟩

theorem channel_0_armed_two_ticks :
    AlongAttempts Programmed.step Programmed.Arms (Programmed.start fun n => ⟨BitVec.ofNat 64 n, 0⟩)
      [.timer false .mode 1 0x34, .timer false (.cntr channel0) 1 2,
        .timer false (.cntr channel0) 1 0, .expire, .callout] :=
  channel_0_armed _ _ (by decide)

theorem zero_count_unarmed : ¬∀ (clock : Nat → Bintime) (accesses : List Access),
      AlongAttempts Programmed.step Programmed.Arms (Programmed.start clock) accesses := by
  intro every
  obtain ⟨-, -, last, -⟩ := every (fun _ => ⟨0, 0⟩) [.timer false .mode 1 0x34,
    .timer false (.cntr channel0) 1 0, .timer false (.cntr channel0) 1 0]
  have armed := last _ rfl (.inl (by decide))
  exact absurd (congrArg Callout.active armed) (by decide)

end

end Pit
