import Bhyve.Lib.Bintime
import Bhyve.Lib.StepRuns

/-!
The timer of the local APIC. The current count is worked out from the time at which the timer fires
and the length of a tick of the present divider. The callout keeps the two flags that vlapic.c looks
at, and calls its handler no earlier than the time it was set to; the handler may wait for the lock.
-/
namespace VlapicTimer
open Bintimes StepRuns

def vlapicBusFreq : Nat := 128 * 1024 * 1024
def apicSvrEnable : BitVec 32 := 0x100
def apicSvrVector : BitVec 32 := 0xff

structure Callout where
  active : Bool
  pending : Bool
  due : Int

def calloutReset (now : Nat) (sbt : Int) : Callout := ⟨true, true, now + sbt * 2 ^ 32⟩

def calloutStop (c : Callout) : Callout := { c with active := false, pending := false }

structure Vlapic where
  icrTimer : BitVec 32
  dcrTimer : BitVec 32
  svr : BitVec 32
  svrLast : BitVec 32
  periodic : Bool
  timerFreqBt : Bintime
  timerPeriodBt : Bintime
  timerFireBt : Bintime
  callout : Callout

/-- The values that 0xb masks are these eight. -/
def vlapicTimerDivisor (dcr : BitVec 32) : Nat :=
  match (dcr &&& 0xb).toNat with
  | 0xb => 1
  | 0x0 => 2
  | 0x1 => 4
  | 0x2 => 8
  | 0x3 => 16
  | 0x8 => 32
  | 0x9 => 64
  | _ => 128

def freq2bt (freq : Nat) : Bintime := ⟨0, BitVec.ofNat 64 (0x8000000000000000 / freq) <<< 1⟩

def bt2freq (bt : Bintime) : BitVec 64 := 0x8000000000000000 / (bt.frac >>> 1)

variable (s : Vlapic)

/-- The count of vlapic_get_ccr, of 32 bits, before it is compared with the initial count. -/
def vlapicGetCcr (now : Nat) : BitVec 32 :=
  if s.callout.active ∧ Before (ofUnits now) s.timerFireBt then
    let btRem := bintimeSub s.timerFireBt (ofUnits now)
    BitVec.ofInt 32 (btRem.sec * (bt2freq s.timerFreqBt).toNat) +
      (btRem.frac / s.timerFreqBt.frac).setWidth 32
  else 0

def vlapicDcrWriteHandler (s : Vlapic) : Vlapic :=
  let freq := freq2bt (vlapicBusFreq / vlapicTimerDivisor s.dcrTimer)
  { s with timerFreqBt := freq, timerPeriodBt := bintimeMul freq s.icrTimer }

def vlapicIcrtmrWriteHandler (now : Nat) : Vlapic :=
  let period := bintimeMul s.timerFreqBt s.icrTimer
  if s.icrTimer ≠ 0 then
    { s with
      timerPeriodBt := period
      timerFireBt := bintimeAdd (ofUnits now) period
      callout := calloutReset now (bttosbt period) }
  else { s with timerPeriodBt := period, callout := calloutStop s.callout }

def enabled (svr : BitVec 32) : Bool := decide (svr &&& apicSvrEnable ≠ 0)

/-- The LVTs that are masked keep their mode. -/
def vlapicSvrWriteHandler (now : Nat) : Vlapic :=
  let changed := s.svrLast ^^^ s.svr
  let s := { s with svrLast := s.svr }
  if enabled changed then
    if enabled s.svr = false then { s with callout := calloutStop s.callout }
    else if s.periodic then vlapicIcrtmrWriteHandler s now
    else s
  else s

def vlapicLvtWrite (data : BitVec 32) : Vlapic :=
  { s with periodic := data.getLsbD 17 }

def startPeriod (now : Nat) : Vlapic :=
  let btnow := ofUnits now
  let bt := bintimeSub btnow s.timerFireBt
  let remSbt := bttosbt s.timerPeriodBt
  if Before bt s.timerPeriodBt then
    { s with
      timerFireBt := bintimeAdd s.timerFireBt s.timerPeriodBt
      callout := calloutReset now (remSbt - bttosbt bt) }
  else
    { s with
      timerFireBt := bintimeAdd btnow s.timerPeriodBt
      callout := calloutReset now remSbt }

def vlapicCalloutHandler (now : Nat) : Vlapic :=
  if s.callout.pending then s
  else if s.callout.active = false then s
  else
    let s := { s with callout := { s.callout with active := false } }
    if s.periodic then startPeriod s now else s

def vlapicReset : Vlapic :=
  vlapicDcrWriteHandler
    ⟨0, 0, apicSvrVector, apicSvrVector, false, ⟨0, 0⟩, ⟨0, 0⟩, ⟨0, 0⟩, ⟨false, false, 0⟩⟩

def Vlapic.divisor (s : Vlapic) : Nat := vlapicTimerDivisor s.dcrTimer

def tick (divisor : Nat) : Int := divisor * 2 ^ 37

theorem divisor_cases (dcr : BitVec 32) :
    vlapicTimerDivisor dcr ∈ [1, 2, 4, 8, 16, 32, 64, 128] := by
  unfold vlapicTimerDivisor
  split <;> decide

theorem divisor_positive (dcr : BitVec 32) : 0 < vlapicTimerDivisor dcr := by
  have all : ∀ d ∈ [1, 2, 4, 8, 16, 32, 64, 128], 0 < d := by decide
  exact all _ (divisor_cases dcr)

structure ExactFreq (divisor : Nat) : Prop where
  sec : (freq2bt (vlapicBusFreq / divisor)).sec = 0
  frac : (freq2bt (vlapicBusFreq / divisor)).frac.toNat = divisor * 2 ^ 37
  ticks : (bt2freq (freq2bt (vlapicBusFreq / divisor))).toNat * (divisor * 2 ^ 37) = 2 ^ 64

theorem freq_exact (dcr : BitVec 32) : ExactFreq (vlapicTimerDivisor dcr) := by
  have all : ∀ d ∈ [1, 2, 4, 8, 16, 32, 64, 128],
      (freq2bt (vlapicBusFreq / d)).frac.toNat = d * 2 ^ 37 ∧
        (bt2freq (freq2bt (vlapicBusFreq / d))).toNat * (d * 2 ^ 37) = 2 ^ 64 := by decide
  obtain ⟨frac, ticks⟩ := all _ (divisor_cases dcr)
  exact ⟨rfl, frac, ticks⟩

structure Clocked (s : Vlapic) : Prop where
  freq : s.timerFreqBt = freq2bt (vlapicBusFreq / s.divisor)
  period : units s.timerPeriodBt = s.icrTimer.toNat * tick s.divisor

theorem freq_units (dcr : BitVec 32) :
    units (freq2bt (vlapicBusFreq / vlapicTimerDivisor dcr)) = tick (vlapicTimerDivisor dcr) := by
  have exact_ := freq_exact dcr
  unfold units tick
  rw [exact_.sec, exact_.frac]
  omega

theorem period_units (dcr icr : BitVec 32) :
    units (bintimeMul (freq2bt (vlapicBusFreq / vlapicTimerDivisor dcr)) icr) =
      icr.toNat * tick (vlapicTimerDivisor dcr) := by
  rw [units_mul, freq_units]
  exact Int.mul_comm _ _

def Pending (now : Nat) : Prop :=
  s.callout.active = true ∧ Before (ofUnits now) s.timerFireBt

theorem ccr_ticks {s : Vlapic} (clocked : Clocked s) {now : Nat} (pending : Pending s now) :
    ((vlapicGetCcr s now).toNat : Int) =
      (units s.timerFireBt - now) / tick s.divisor % 2 ^ 32 := by
  have exact_ := freq_exact s.dcrTimer
  have positive := divisor_positive s.dcrTimer
  have units_ := units_sub s.timerFireBt (ofUnits now)
  rw [units_of_units] at units_
  generalize left_ : bintimeSub s.timerFireBt (ofUnits now) = rem at units_
  have count : vlapicGetCcr s now = BitVec.ofInt 32 (rem.sec * (bt2freq s.timerFreqBt).toNat) +
      (rem.frac / s.timerFreqBt.frac).setWidth 32 := by
    have both : s.callout.active = true ∧ Before (ofUnits now) s.timerFireBt := pending
    unfold vlapicGetCcr
    rw [if_pos both, left_]
  have whole : units rem / tick s.divisor = rem.sec * (bt2freq s.timerFreqBt).toNat +
      (rem.frac.toNat / (s.divisor * 2 ^ 37) : Nat) := by
    have length : (0 : Int) < (s.divisor * 2 ^ 37 : Nat) := by
      have some_ : 0 < s.divisor := positive
      omega
    have second : (2 : Int) ^ 64 =
        (bt2freq s.timerFreqBt).toNat * (s.divisor * 2 ^ 37 : Nat) := by
      have ticks := exact_.ticks
      rw [clocked.freq, ← Int.natCast_mul]
      exact_mod_cast ticks.symm
    have same : tick s.divisor = (s.divisor * 2 ^ 37 : Nat) := by
      unfold tick
      omega
    unfold units
    rw [second, same, ← Int.mul_assoc, Int.add_comm, Int.add_mul_ediv_right _ _ (Int.ne_of_gt length),
      Int.add_comm, Int.natCast_ediv]
  have frac : s.timerFreqBt.frac.toNat = s.divisor * 2 ^ 37 := by
    rw [clocked.freq]
    exact exact_.frac
  rw [count, ← units_, whole, BitVec.toNat_add, BitVec.toNat_ofInt, BitVec.toNat_setWidth,
    BitVec.toNat_udiv, frac]
  generalize rem.sec * ((bt2freq s.timerFreqBt).toNat : Int) = seconds
  generalize rem.frac.toNat / (s.divisor * 2 ^ 37) = parts
  omega

section

inductive Act where
  | writeIcr (data : BitVec 32)
  | writeDcr (data : BitVec 32)
  | writeLvt (data : BitVec 32)
  | writeSvr (data : BitVec 32)
  | readCcr
  | calloutDue
  | handler

/-- The timer at a time, with what is known of its last reload: the divider that was in effect, and
    the last count that was read since then in one-shot mode, with its divider. -/
structure Timed where
  vlapic : Vlapic
  now : Nat
  entered : Bool
  armed : Nat
  seen : Option (BitVec 32 × Nat)

def Timed.start : Timed := ⟨vlapicReset, 0, false, 2, none⟩

def Timed.later (s : Timed) (time : Nat) : Timed := { s with now := s.now + time }

def Timed.reloaded (s : Timed) (vlapic : Vlapic) : Timed :=
  { s with vlapic, armed := vlapic.divisor, seen := none }

/-- A write to the SVR that enables the APIC starts a periodic timer again. -/
def Restarts (data : BitVec 32) : Prop :=
  enabled (s.svrLast ^^^ data) = true ∧ enabled data = true ∧ s.periodic = true

instance (s : Vlapic) (data : BitVec 32) : Decidable (Restarts s data) :=
  inferInstanceAs (Decidable (_ ∧ _ ∧ _))

def GoesOn (s : Vlapic) : Prop :=
  s.callout.pending = false ∧ s.callout.active = true ∧ s.periodic = true

instance (s : Vlapic) : Decidable (GoesOn s) := inferInstanceAs (Decidable (_ ∧ _ ∧ _))

def Timed.act (s : Timed) : Act → Timed
  | .writeIcr data => s.reloaded (vlapicIcrtmrWriteHandler { s.vlapic with icrTimer := data } s.now)
  | .writeDcr data => { s with vlapic := vlapicDcrWriteHandler { s.vlapic with dcrTimer := data } }
  | .writeLvt data => { s with vlapic := vlapicLvtWrite s.vlapic data }
  | .writeSvr data =>
      let vlapic := vlapicSvrWriteHandler { s.vlapic with svr := data } s.now
      if Restarts s.vlapic data then s.reloaded vlapic else { s with vlapic }
  | .readCcr =>
      if s.vlapic.periodic then s
      else { s with seen := some (vlapicGetCcr s.vlapic s.now, s.vlapic.divisor) }
  | .calloutDue =>
      if s.vlapic.callout.pending = true ∧ s.entered = false ∧ s.vlapic.callout.due ≤ s.now then
        { s with
          vlapic := { s.vlapic with callout := { s.vlapic.callout with pending := false } }
          entered := true }
      else s
  | .handler =>
      if s.entered then
        let vlapic := vlapicCalloutHandler s.vlapic s.now
        let s' := { s with entered := false }
        if GoesOn s.vlapic then s'.reloaded vlapic else { s' with vlapic }
      else s

def timedStep (s : Timed) (e : Nat × Act) : Timed := (s.later e.1).act e.2

/-- A count that is read is not above the initial count, nor in one-shot mode above one that was
    read there since the last reload. -/
def CountRight (s : Timed) : Act → Prop
  | .readCcr =>
      (vlapicGetCcr s.vlapic s.now).toNat ≤ s.vlapic.icrTimer.toNat ∧
      (s.vlapic.periodic = false → ∀ v d, s.seen = some (v, d) →
        (vlapicGetCcr s.vlapic s.now).toNat ≤ v.toNat)
  | _ => True

/-- The count of a timer that has not fired is not read with a divider below that of its last reload
    or, in one-shot mode, of a read since. -/
def DividerKept (s : Timed) : Act → Prop
  | .readCcr => Pending s.vlapic s.now →
      s.armed ≤ s.vlapic.divisor ∧
      (s.vlapic.periodic = false → ∀ v d, s.seen = some (v, d) → d ≤ s.vlapic.divisor)
  | _ => True

structure Counts (s : Timed) : Prop extends Clocked s.vlapic where
  fire : s.vlapic.callout.active = true →
    units s.vlapic.timerFireBt ≤ s.now + s.vlapic.icrTimer.toNat * tick s.armed
  due : s.vlapic.callout.active = true → s.vlapic.callout.pending = true →
    units s.vlapic.timerFireBt ≤ s.vlapic.callout.due
  called : s.vlapic.callout.active = true → s.vlapic.callout.pending = false →
    units s.vlapic.timerFireBt ≤ s.now
  seen : ∀ v d, s.seen = some (v, d) → s.vlapic.callout.active = true →
    units s.vlapic.timerFireBt - s.now < (v.toNat + 1) * tick d

structure Loaded (s : Vlapic) (now : Nat) : Prop extends Clocked s where
  fire : s.callout.active = true →
    units s.timerFireBt ≤ now + s.icrTimer.toNat * tick s.divisor
  due : s.callout.active = true →
    s.callout.pending = true ∧ units s.timerFireBt ≤ s.callout.due

variable {s : Timed} {v : Vlapic} {now : Nat}

theorem counts_later (counts : Counts s) (time : Nat) : Counts (s.later time) := by
  have later : (s.later time).now = s.now + time := rfl
  refine ⟨counts.toClocked, ?_, counts.due, ?_, ?_⟩
  · intro active
    have before := counts.fire active
    show units s.vlapic.timerFireBt ≤ s.now + time + s.vlapic.icrTimer.toNat * tick s.armed
    omega
  · intro active called
    have before := counts.called active called
    show units s.vlapic.timerFireBt ≤ (s.now + time : Nat)
    omega
  · intro val d seen active
    have before := counts.seen val d seen active
    show units s.vlapic.timerFireBt - (s.now + time : Nat) < (val.toNat + 1) * tick d
    omega

theorem counts_reloaded (loaded : Loaded v s.now) : Counts (s.reloaded v) := by
  refine ⟨loaded.toClocked, loaded.fire, fun active _ => (loaded.due active).2, ?_, ?_⟩
  · intro active called
    have pending := (loaded.due active).1
    rw [show v.callout.pending = false from called] at pending
    cases pending
  · intro val d none_
    cases none_

theorem ticks_whole (count : BitVec 32) (divisor : Nat) :
    count.toNat * tick divisor / 2 ^ 32 * 2 ^ 32 = count.toNat * tick divisor := by
  unfold tick
  rw [← Int.mul_assoc]
  generalize (count.toNat : Int) * (divisor : Int) = n
  omega

theorem icrtmr_loaded (freq : v.timerFreqBt = freq2bt (vlapicBusFreq / v.divisor)) (now : Nat) :
    Loaded (vlapicIcrtmrWriteHandler v now) now := by
  have period : units (bintimeMul v.timerFreqBt v.icrTimer) = v.icrTimer.toNat * tick v.divisor := by
    rw [freq]
    exact period_units v.dcrTimer v.icrTimer
  have sbt : bttosbt (bintimeMul v.timerFreqBt v.icrTimer) * 2 ^ 32 =
      v.icrTimer.toNat * tick v.divisor := by
    rw [sbt_units, period]
    exact ticks_whole v.icrTimer v.divisor
  have fire : units (bintimeAdd (ofUnits now) (bintimeMul v.timerFreqBt v.icrTimer)) =
      now + v.icrTimer.toNat * tick v.divisor := by
    rw [units_add, units_of_units, period]
  unfold vlapicIcrtmrWriteHandler
  split
  · refine ⟨⟨freq, period⟩, fun _ => Int.le_of_eq fire, fun _ => ⟨rfl, ?_⟩⟩
    rw [fire]
    show _ ≤ (now : Int) + bttosbt (bintimeMul v.timerFreqBt v.icrTimer) * 2 ^ 32
    omega
  · refine ⟨⟨freq, period⟩, ?_, ?_⟩
    · intro stopped
      cases stopped
    · intro stopped
      cases stopped

theorem period_loaded (clocked : Clocked v) (late : units v.timerFireBt ≤ now) :
    Loaded (startPeriod v now) now := by
  have period := clocked.period
  have sbt : bttosbt v.timerPeriodBt * 2 ^ 32 = v.icrTimer.toNat * tick v.divisor := by
    rw [sbt_units, period]
    exact ticks_whole v.icrTimer v.divisor
  have lost := units_sub (ofUnits now) v.timerFireBt
  rw [units_of_units] at lost
  have lostSbt := sbt_units (bintimeSub (ofUnits now) v.timerFireBt)
  have early : units (bintimeAdd v.timerFireBt v.timerPeriodBt) =
      units v.timerFireBt + v.icrTimer.toNat * tick v.divisor := by
    rw [units_add, period]
  have again : units (bintimeAdd (ofUnits now) v.timerPeriodBt) =
      now + v.icrTimer.toNat * tick v.divisor := by
    rw [units_add, units_of_units, period]
  unfold startPeriod
  dsimp only
  split
  · refine ⟨⟨clocked.freq, period⟩, fun _ => ?_, fun _ => ⟨rfl, ?_⟩⟩
    · dsimp only [Vlapic.divisor] at early ⊢
      omega
    · dsimp only [calloutReset]
      omega
  · refine ⟨⟨clocked.freq, period⟩, fun _ => Int.le_of_eq again, fun _ => ⟨rfl, ?_⟩⟩
    dsimp only [calloutReset]
    rw [again, sbt]

theorem tick_positive (dcr : BitVec 32) : 0 < tick (vlapicTimerDivisor dcr) := by
  have positive := divisor_positive dcr
  unfold tick
  omega

theorem tick_mono {d e : Nat} (le : d ≤ e) (count : Nat) : count * tick d ≤ count * tick e := by
  have longer : tick d ≤ tick e := by
    unfold tick
    omega
  exact Int.mul_le_mul_of_nonneg_left longer (Int.natCast_nonneg count)

theorem pending_iff (v : Vlapic) (now : Nat) :
    Pending v now ↔ v.callout.active = true ∧ (now : Int) < units v.timerFireBt := by
  unfold Pending
  rw [before_iff, units_of_units]

theorem ccr_exact (counts : Counts s) (kept : s.armed ≤ s.vlapic.divisor)
    (pending : Pending s.vlapic s.now) : ((vlapicGetCcr s.vlapic s.now).toNat : Int) =
        (units s.vlapic.timerFireBt - s.now) / tick s.vlapic.divisor ∧
      (vlapicGetCcr s.vlapic s.now).toNat ≤ s.vlapic.icrTimer.toNat := by
  have length : 0 < tick s.vlapic.divisor := tick_positive s.vlapic.dcrTimer
  have ticks := ccr_ticks counts.toClocked pending
  obtain ⟨active, ahead⟩ := (pending_iff s.vlapic s.now).mp pending
  have fire := counts.fire active
  have longer := tick_mono kept s.vlapic.icrTimer.toNat
  have few : (units s.vlapic.timerFireBt - s.now) / tick s.vlapic.divisor ≤
      s.vlapic.icrTimer.toNat := by
    apply Int.ediv_le_of_le_mul length
    omega
  have some_ : 0 ≤ (units s.vlapic.timerFireBt - s.now) / tick s.vlapic.divisor :=
    Int.ediv_nonneg (by omega) (Int.le_of_lt length)
  omega

theorem ccr_idle {v : Vlapic} {now : Nat} (idle : ¬Pending v now) : vlapicGetCcr v now = 0 :=
  if_neg idle

section
variable (counts : Counts s)
include counts

theorem read_right (kept : DividerKept s .readCcr) : CountRight s .readCcr := by
  by_cases pending : Pending s.vlapic s.now
  · obtain ⟨armed, below⟩ := kept pending
    obtain ⟨ticks, few⟩ := ccr_exact counts armed pending
    obtain ⟨active, -⟩ := (pending_iff s.vlapic s.now).mp pending
    refine ⟨few, ?_⟩
    intro oneShot val d seen
    have length : 0 < tick s.vlapic.divisor := tick_positive s.vlapic.dcrTimer
    have before := counts.seen val d seen active
    have longer := tick_mono (below oneShot val d seen) (val.toNat + 1)
    have less : (units s.vlapic.timerFireBt - s.now) / tick s.vlapic.divisor < val.toNat + 1 := by
      apply Int.ediv_lt_of_lt_mul length
      push_cast at longer
      omega
    omega
  · rw [CountRight, ccr_idle pending]
    exact ⟨Nat.zero_le _, fun _ val _ _ => Nat.zero_le val.toNat⟩

theorem counts_read (kept : DividerKept s .readCcr) : Counts (s.act .readCcr) := by
  unfold Timed.act
  dsimp only
  split
  · exact counts
  · refine ⟨counts.toClocked, counts.fire, counts.due, counts.called, ?_⟩
    intro val d seen active
    cases seen
    have length : 0 < tick s.vlapic.divisor := tick_positive s.vlapic.dcrTimer
    by_cases pending : Pending s.vlapic s.now
    · obtain ⟨ticks, -⟩ := ccr_exact counts (kept pending).1 pending
      rw [ticks]
      exact Int.lt_ediv_add_one_mul_self _ length
    · have past : ¬(s.now : Int) < units s.vlapic.timerFireBt :=
        fun ahead => pending ((pending_iff s.vlapic s.now).mpr ⟨active, ahead⟩)
      rw [ccr_idle pending]
      show units s.vlapic.timerFireBt - s.now < (0 + 1) * tick s.vlapic.divisor
      omega

theorem counts_dcr (data : BitVec 32) : Counts (s.act (.writeDcr data)) :=
  ⟨⟨rfl, period_units data s.vlapic.icrTimer⟩, counts.fire, counts.due, counts.called, counts.seen⟩

theorem counts_svr (data : BitVec 32) : Counts (s.act (.writeSvr data)) := by
  have same : Counts { s with vlapic := { s.vlapic with svr := data, svrLast := data } } :=
    ⟨⟨counts.freq, counts.period⟩, counts.fire, counts.due, counts.called, counts.seen⟩
  have stopped : Counts { s with vlapic := { s.vlapic with
      svr := data, svrLast := data, callout := calloutStop s.vlapic.callout } } := by
    refine ⟨⟨counts.freq, counts.period⟩, ?_, ?_, ?_, ?_⟩
    · intro active
      cases active
    · intro active
      cases active
    · intro active
      cases active
    · intro val d seen active
      cases active
  unfold Timed.act vlapicSvrWriteHandler
  dsimp only
  by_cases restarts : Restarts s.vlapic data
  · obtain ⟨changed, on, periodic⟩ := restarts
    rw [if_pos ⟨changed, on, periodic⟩, if_pos changed, if_neg (by rw [on]; exact Bool.noConfusion),
      if_pos periodic]
    exact counts_reloaded (@icrtmr_loaded { s.vlapic with svr := data, svrLast := data } counts.freq
      s.now)
  · rw [if_neg restarts]
    by_cases changed : enabled (s.vlapic.svrLast ^^^ data) = true
    · rw [if_pos changed]
      by_cases off : enabled data = false
      · rw [if_pos off]
        exact stopped
      · rw [if_neg off]
        have oneShot : ¬s.vlapic.periodic = true :=
          fun periodic => restarts ⟨changed, Bool.not_eq_false _ ▸ off, periodic⟩
        rw [if_neg oneShot]
        exact same
    · rw [if_neg changed]
      exact same

theorem counts_due : Counts (s.act .calloutDue) := by
  unfold Timed.act
  dsimp only
  split
  · next called =>
    obtain ⟨pending, -, come⟩ := called
    refine ⟨⟨counts.freq, counts.period⟩, counts.fire, ?_, ?_, counts.seen⟩
    · intro _ never
      cases never
    · intro active _
      exact Int.le_trans (counts.due active pending) come
  · exact counts

theorem counts_handler : Counts (s.act .handler) := by
  unfold Timed.act
  dsimp only
  split
  · unfold vlapicCalloutHandler
    by_cases goes : GoesOn s.vlapic
    · obtain ⟨idle, active, periodic⟩ := goes
      have late := counts.called active idle
      rw [if_pos ⟨idle, active, periodic⟩, if_neg (by rw [idle]; exact Bool.false_ne_true),
        if_neg (by rw [active]; exact Bool.noConfusion)]
      rw [if_pos periodic]
      have loaded := @period_loaded
        { s.vlapic with callout := { s.vlapic.callout with active := false } } s.now
        ⟨counts.freq, counts.period⟩ late
      exact @counts_reloaded { s with entered := false } _ loaded
    · rw [if_neg goes]
      have same : Counts { s with entered := false } :=
        ⟨counts.toClocked, counts.fire, counts.due, counts.called, counts.seen⟩
      split
      · exact same
      · next idle =>
        split
        · exact same
        · next stays =>
          have active : s.vlapic.callout.active = true := (Bool.not_eq_false _).mp stays
          have oneShot : ¬s.vlapic.periodic = true :=
            fun periodic => goes ⟨(Bool.not_eq_true _).mp idle, active, periodic⟩
          rw [if_neg oneShot]
          refine ⟨⟨counts.freq, counts.period⟩, ?_, ?_, ?_, ?_⟩
          · intro never
            cases never
          · intro never
            cases never
          · intro never
            cases never
          · intro val d seen never
            cases never
  · exact counts

theorem counts_act (a : Act) (kept : DividerKept s a) : Counts (s.act a) := by
  cases a with
  | writeIcr data =>
    exact counts_reloaded (@icrtmr_loaded { s.vlapic with icrTimer := data } counts.freq s.now)
  | writeDcr data => exact counts_dcr counts data
  | writeLvt data =>
    exact ⟨⟨counts.freq, counts.period⟩, counts.fire, counts.due, counts.called, counts.seen⟩
  | writeSvr data => exact counts_svr counts data
  | readCcr => exact counts_read counts kept
  | calloutDue => exact counts_due counts
  | handler => exact counts_handler counts

theorem act_right (a : Act) (kept : DividerKept s a) : CountRight s a := by
  cases a with
  | readCcr => exact read_right counts kept
  | _ => trivial

end

theorem start_counts : Counts .start := by
  refine ⟨⟨rfl, period_units 0 0⟩, ?_, ?_, ?_, ?_⟩
  · intro never
    cases never
  · intro never
    cases never
  · intro never
    cases never
  · intro val d never
    cases never

/-- Along a run whose reads find the divider kept, the counts that are read are right. -/
theorem counts_right (events : List (Nat × Act))
    (kept : Along timedStep (fun s e => DividerKept (s.later e.1) e.2) .start events) :
    Along timedStep (fun s e => CountRight (s.later e.1) e.2) .start events := by
  have keeps : ∀ (s : Timed) (e : Nat × Act), Counts s → DividerKept (s.later e.1) e.2 →
      Counts (timedStep s e) := by
    intro s e counts kept
    exact counts_act (counts_later counts e.1) e.2 kept
  have gives : ∀ (s : Timed) (e : Nat × Act), Counts s → DividerKept (s.later e.1) e.2 →
      CountRight (s.later e.1) e.2 := by
    intro s e counts kept
    exact act_right (counts_later counts e.1) e.2 kept
  exact along_of_invariant keeps gives events Timed.start start_counts kept

theorem counts_right_twice : Along timedStep (fun s e => DividerKept (s.later e.1) e.2) .start
        [(0, .writeIcr 1000), (0, .readCcr), (2 ^ 45, .readCcr)] ∧
      Along timedStep (fun s e => CountRight (s.later e.1) e.2) .start
        [(0, .writeIcr 1000), (0, .readCcr), (2 ^ 45, .readCcr)] := by
  have kept : Along timedStep (fun s e => DividerKept (s.later e.1) e.2) Timed.start
      [(0, .writeIcr 1000), (0, .readCcr), (2 ^ 45, .readCcr)] := by
    refine ⟨trivial, fun _ => ⟨by decide, ?_⟩, fun _ => ⟨by decide, ?_⟩, trivial⟩
    · intro _ val d none_
      cases none_
    · intro _ val d seen
      cases seen
      exact Nat.le_refl 2
  exact ⟨kept, counts_right _ kept⟩

theorem faster_divider_read : ¬Along timedStep (fun s e => CountRight (s.later e.1) e.2) .start
      [(0, .writeDcr 0xa), (0, .writeIcr 1000), (0, .writeDcr 0xb), (0, .readCcr)] := by
  rintro ⟨-, -, -, right, -⟩
  exact absurd right.1 (by decide)

end

end VlapicTimer
