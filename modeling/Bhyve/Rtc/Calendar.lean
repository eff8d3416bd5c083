import Bhyve.Lib.Periods
import Bhyve.Rtc.Timekeeping

/-!
The calendar of the kernel. A date is valid when it is the date of a time from 1970 on, and on
these clock_ts_to_ct and clock_ct_to_ts are inverse to each other.
-/
namespace Rtc
open Periods

structure InverseClock (kernel : Kernel) : Prop where
  valid : ∀ t, 0 ≤ t → validClocktime (kernel.clockTsToCt t) = true
  inverse : ∀ ct t, posixBaseYear ≤ ct.year → 0 ≤ t → (kernel.clockCtToTs ct = some t ↔
    kernel.clockTsToCt t = { ct with dow := (kernel.clockTsToCt t).dow })

def leapYear (year : Nat) : Bool := decide (year % 4 = 0 ∧ (year % 100 ≠ 0 ∨ year % 400 = 0))

def daysInYear (year : Nat) : Nat := if leapYear year then 366 else 365

/-- Months count from 0 here. -/
def daysInMonth (year mon : Nat) : Nat :=
  match mon with
  | 1 => if leapYear year then 29 else 28
  | 3 | 5 | 8 | 10 => 30
  | _ => 31

def yearLength (n : Nat) : Nat := daysInYear (posixBaseYear + n)

def validDate (ct : Clocktime) : Bool :=
  decide (ct.sec ≤ 59 ∧ ct.min ≤ 59 ∧ ct.hour ≤ 23 ∧ 1 ≤ ct.mon ∧ ct.mon ≤ 12 ∧ 1 ≤ ct.day ∧
    ct.day ≤ daysInMonth ct.year (ct.mon - 1) ∧ posixBaseYear ≤ ct.year)

def daysBefore (ct : Clocktime) : Nat :=
  before yearLength (ct.year - posixBaseYear) + (before (daysInMonth ct.year) (ct.mon - 1) + (ct.day - 1))

def gregorianKernel : Kernel where
  clockTsToCt t :=
    let secs := t.toNat
    let days := secs / 86400
    let years := split yearLength days 0 days
    let year := posixBaseYear + years.1
    let months := split (daysInMonth year) years.2 0 years.2
    ⟨secs % 60, secs / 60 % 60, secs / 3600 % 24, months.2 + 1, months.1 + 1, year,
      ((days + 4) % 7 : Nat)⟩
  clockCtToTs ct :=
    if validDate ct then
      some ((daysBefore ct * 86400 + ct.hour * 3600 + ct.min * 60 + ct.sec : Nat) : Int)
    else none
  flagBrokenTime := true

theorem year_positive (n : Nat) : 0 < yearLength n := by
  unfold yearLength daysInYear
  split <;> decide

theorem month_positive (year mon : Nat) : 0 < daysInMonth year mon := by
  unfold daysInMonth
  split
  · split <;> decide
  all_goals decide

theorem month_le (year mon : Nat) : daysInMonth year mon ≤ 31 := by
  unfold daysInMonth
  split
  · split <;> decide
  all_goals decide

theorem months_of_year (year : Nat) : before (daysInMonth year) 12 = daysInYear year := by
  unfold daysInYear
  simp only [before, daysInMonth]
  split <;> rfl

theorem month_place {year rest : Nat} (inside : rest < daysInYear year) :
    (split (daysInMonth year) rest 0 rest).1 < 12 ∧
      (split (daysInMonth year) rest 0 rest).2 <
        daysInMonth year (split (daysInMonth year) rest 0 rest).1 ∧
      before (daysInMonth year) (split (daysInMonth year) rest 0 rest).1 +
        (split (daysInMonth year) rest 0 rest).2 = rest := by
  obtain ⟨place, same⟩ := split_place (month_positive year) rest 0 rest (Nat.le_refl rest)
  rw [before, Nat.zero_add] at same
  refine ⟨?_, place, same⟩
  apply @period_lt (daysInMonth year)
  rw [months_of_year, same]
  exact inside

theorem gregorian_valid (t : Int) : validClocktime (gregorianKernel.clockTsToCt t) = true := by
  obtain ⟨inside, -⟩ := split_place year_positive (t.toNat / 86400) 0 _ (Nat.le_refl _)
  obtain ⟨month, day, -⟩ := month_place inside
  have short := month_le (posixBaseYear + (split yearLength (t.toNat / 86400) 0 (t.toNat / 86400)).1)
    (split (daysInMonth (posixBaseYear + (split yearLength (t.toNat / 86400) 0 (t.toNat / 86400)).1))
      (split yearLength (t.toNat / 86400) 0 (t.toNat / 86400)).2 0
      (split yearLength (t.toNat / 86400) 0 (t.toNat / 86400)).2).1
  apply decide_eq_true
  unfold gregorianKernel
  dsimp only
  omega

theorem date_split {ct : Clocktime} (valid : validDate ct = true) :
    split yearLength (daysBefore ct) 0 (daysBefore ct) =
        (ct.year - posixBaseYear, before (daysInMonth ct.year) (ct.mon - 1) + (ct.day - 1)) ∧
      split (daysInMonth ct.year) (before (daysInMonth ct.year) (ct.mon - 1) + (ct.day - 1)) 0
          (before (daysInMonth ct.year) (ct.mon - 1) + (ct.day - 1)) =
        (ct.mon - 1, ct.day - 1) := by
  obtain ⟨-, -, -, firstMonth, lastMonth, firstDay, lastDay, base⟩ := of_decide_eq_true valid
  have day : ct.day - 1 < daysInMonth ct.year (ct.mon - 1) := by omega
  have whole := before_whole day (by omega : ct.mon - 1 < 12)
  have inside : before (daysInMonth ct.year) (ct.mon - 1) + (ct.day - 1) <
      yearLength (ct.year - posixBaseYear) := by
    rw [yearLength, Nat.add_sub_cancel' base, ← months_of_year]
    exact whole
  exact ⟨split_before year_positive inside, split_before (month_positive ct.year) day⟩

theorem valid_date_time {ct : Clocktime} (valid : validDate ct = true) {secs : Nat}
    (time : secs = daysBefore ct * 86400 + ct.hour * 3600 + ct.min * 60 + ct.sec) :
    gregorianKernel.clockTsToCt secs =
      { ct with dow := (gregorianKernel.clockTsToCt secs).dow } := by
  obtain ⟨years, months⟩ := date_split valid
  obtain ⟨sec, min, hour, firstMonth, -, firstDay, -, base⟩ := of_decide_eq_true valid
  have days : secs / 86400 = daysBefore ct := by omega
  have seconds : secs % 60 = ct.sec := by omega
  have minutes : secs / 60 % 60 = ct.min := by omega
  have hours : secs / 3600 % 24 = ct.hour := by omega
  have month : ct.mon - 1 + 1 = ct.mon := Nat.sub_add_cancel firstMonth
  have day : ct.day - 1 + 1 = ct.day := Nat.sub_add_cancel firstDay
  unfold gregorianKernel
  dsimp only
  rw [Int.toNat_natCast, days, years]
  rw [Nat.add_sub_cancel' base, months, seconds, minutes, hours, month, day]

theorem time_date (secs : Nat) {ct : Clocktime} (same : gregorianKernel.clockTsToCt secs =
      { ct with dow := (gregorianKernel.clockTsToCt secs).dow }) :
    validDate ct = true ∧
      secs = daysBefore ct * 86400 + ct.hour * 3600 + ct.min * 60 + ct.sec := by
  obtain ⟨inside, whole⟩ := split_place year_positive (secs / 86400) 0 _ (Nat.le_refl _)
  rw [before, Nat.zero_add] at whole
  obtain ⟨twelve, day, rest⟩ := month_place inside
  obtain ⟨sec, min, hour, dayNo, mon, year, dow⟩ := ct
  unfold gregorianKernel at same
  dsimp only at same
  rw [Int.toNat_natCast] at same
  injection same with secOf minOf hourOf dayOf monOf yearOf _
  generalize split yearLength (secs / 86400) 0 (secs / 86400) = years at *
  subst yearOf
  generalize split (daysInMonth (posixBaseYear + years.1)) years.2 0 years.2 = months at *
  subst secOf minOf hourOf dayOf monOf
  constructor
  · apply decide_eq_true
    dsimp only
    rw [Nat.add_sub_cancel]
    omega
  · unfold daysBefore
    dsimp only
    rw [Nat.add_sub_cancel, Nat.add_sub_cancel, Nat.add_sub_cancel_left, rest, whole]
    omega

theorem gregorian_inverse : InverseClock gregorianKernel := by
  refine ⟨fun t _ => gregorian_valid t, fun ct t _ positive => ?_⟩
  obtain ⟨secs, rfl⟩ := Int.eq_ofNat_of_zero_le positive
  have back : gregorianKernel.clockCtToTs ct = if validDate ct then
      some ((daysBefore ct * 86400 + ct.hour * 3600 + ct.min * 60 + ct.sec : Nat) : Int)
      else none := rfl
  rw [back]
  constructor
  · intro found
    split at found
    · next valid =>
      have time := Int.ofNat.inj (Option.some.inj found)
      exact valid_date_time valid time.symm
    · cases found
  · intro same
    obtain ⟨valid, time⟩ := time_date secs same
    rw [if_pos valid, ← time]

end Rtc
