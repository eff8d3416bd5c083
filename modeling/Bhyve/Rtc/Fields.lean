import Bhyve.Rtc.Calendar

namespace Rtc
open ByteMemory Fallible

def EncodesNumber (regB byte : BitVec 8) (n : Nat) : Prop :=
  if hasBits regB rtcsbBin then byte.toNat = n else n < 100 ∧ byte = bin2bcd n

/-- 12 AM and 12 PM are the hours 0 and 12. -/
def clockHour (hour : Nat) : Nat := if hour % 12 = 0 then 12 else hour % 12

def EncodesHour (regB byte : BitVec 8) (hour : Nat) : Prop :=
  if hasBits regB rtcsb24hr then EncodesNumber regB byte hour
  else EncodesNumber regB (byte &&& 0x7f) (clockHour hour) ∧ hasBits byte 0x80 = decide (12 ≤ hour)

structure Encodes (rtc : Mem) (ct : Clocktime) : Prop where
  sec : EncodesNumber (rtc rtcRegB) (rtc rtcSec) ct.sec
  min : EncodesNumber (rtc rtcRegB) (rtc rtcMin) ct.min
  hour : EncodesHour (rtc rtcRegB) (rtc rtcHour) ct.hour
  day : EncodesNumber (rtc rtcRegB) (rtc rtcDayOfMonth) ct.day
  mon : EncodesNumber (rtc rtcRegB) (rtc rtcMonth) ct.mon
  year : EncodesNumber (rtc rtcRegB) (rtc rtcYear) (ct.year % 100)
  century : EncodesNumber (rtc rtcRegB) (rtc rtcCentury) (ct.year / 100)

section
variable {regB byte : BitVec 8} {n : Nat}

theorem encodes_binary (binary : hasBits regB rtcsbBin = true) :
    EncodesNumber regB byte n ↔ byte.toNat = n := by
  unfold EncodesNumber
  rw [if_pos binary]

theorem encodes_bcd (bcd : hasBits regB rtcsbBin = false) :
    EncodesNumber regB byte n ↔ n < 100 ∧ byte = bin2bcd n := by
  unfold EncodesNumber
  rw [if_neg (fun never => Bool.false_ne_true (bcd.symm.trans never))]

theorem encodes_unique {other : BitVec 8} (first : EncodesNumber regB byte n)
    (second : EncodesNumber regB other n) : byte = other := by
  cases format : hasBits regB rtcsbBin with
  | true =>
    rw [encodes_binary format] at first second
    exact BitVec.eq_of_toNat_eq (first.trans second.symm)
  | false =>
    rw [encodes_bcd format] at first second
    exact first.2.trans second.2.symm

theorem rtcget_of_bcd (bcd : hasBits regB rtcsbBin = false) (byte : BitVec 8) :
    rtcget regB byte = rtcget 0x0a byte := by
  have rom : hasBits 0x0a rtcsbBin = false := by decide
  unfold rtcget
  rw [bcd, rom]

theorem rtcget_iff : rtcget regB byte = some n ↔ EncodesNumber regB byte n := by
  cases format : hasBits regB rtcsbBin with
  | true =>
    unfold rtcget
    rw [if_pos format, encodes_binary format, Option.some.injEq]
  | false =>
    rw [rtcget_of_bcd format, encodes_bcd format]
    constructor
    · intro read
      have inverse := rtcget_inverse byte
      rw [read] at inverse
      obtain ⟨small, same⟩ := of_decide_eq_true inverse
      exact ⟨small, same.symm⟩
    · rintro ⟨small, rfl⟩
      exact rtcget_bcd n small

theorem rtcset_stores (small : n < 100) :
    ∃ stored, rtcset regB n = .ok stored ∧ EncodesNumber regB stored n := by
  unfold rtcset
  rw [if_neg (Nat.not_le.mpr small)]
  refine ⟨_, rfl, ?_⟩
  cases format : hasBits regB rtcsbBin with
  | true =>
    rw [if_pos rfl, encodes_binary format, BitVec.toNat_ofNat]
    exact Nat.mod_eq_of_lt (by omega)
  | false =>
    rw [if_neg Bool.false_ne_true, encodes_bcd format]
    exact ⟨small, rfl⟩

end

section
variable {regB byte : BitVec 8} {hour : Nat}

theorem encodes_wide (wide : hasBits regB rtcsb24hr = true) :
    EncodesHour regB byte hour ↔ EncodesNumber regB byte hour := by
  unfold EncodesHour
  rw [if_pos wide]

theorem encodes_half (half : hasBits regB rtcsb24hr = false) : EncodesHour regB byte hour ↔
      EncodesNumber regB (byte &&& 0x7f) (clockHour hour) ∧
        hasBits byte 0x80 = decide (12 ≤ hour) := by
  unfold EncodesHour
  rw [if_neg (fun never => Bool.false_ne_true (half.symm.trans never))]

theorem byte_parts {first second : BitVec 8} (low : first &&& 0x7f = second &&& 0x7f)
    (high : hasBits first 0x80 = hasBits second 0x80) : first = second := by
  have parts (byte : BitVec 8) :
      byte = byte &&& 0x7f ||| if hasBits byte 0x80 then 0x80 else 0 := by
    have all : ∀ byte : BitVec 8,
        byte = byte &&& 0x7f ||| if hasBits byte 0x80 then 0x80 else 0 := by decide
    exact all byte
  rw [parts first, parts second, low, high]

theorem hour_unique {other : BitVec 8} (first : EncodesHour regB byte hour)
    (second : EncodesHour regB other hour) : byte = other := by
  cases format : hasBits regB rtcsb24hr with
  | true =>
    rw [encodes_wide format] at first second
    exact encodes_unique first second
  | false =>
    rw [encodes_half format] at first second
    exact byte_parts (encodes_unique first.1 second.1) (first.2.trans second.2.symm)

theorem rtcget_half_iff (half : hasBits regB rtcsb24hr = false) :
    rtcgetHour regB byte = some hour ↔ EncodesHour regB byte hour ∧ hour ≤ 23 := by
  rw [encodes_half half]
  unfold rtcgetHour
  rw [if_neg (fun never => Bool.false_ne_true (half.symm.trans never))]
  constructor
  · intro read
    split at read
    · cases read
    · next k number =>
      split at read
      · next inside =>
        have sum := Option.some.inj read
        have encoded := rtcget_iff.mp number
        cases pm : hasBits byte 0x80 with
        | true =>
          rw [pm, if_pos rfl] at sum
          have same : clockHour hour = k := by
            unfold clockHour
            split at sum <;> split <;> omega
          have late : 12 ≤ hour := by omega
          rw [same]
          refine ⟨⟨encoded, (decide_eq_true late).symm⟩, ?_⟩
          split at sum <;> omega
        | false =>
          rw [pm, if_neg Bool.false_ne_true] at sum
          have same : clockHour hour = k := by
            unfold clockHour
            split at sum <;> split <;> omega
          have early : ¬ 12 ≤ hour := by
            split at sum <;> omega
          rw [same]
          exact ⟨⟨encoded, (decide_eq_false early).symm⟩, by omega⟩
      · cases read
  · rintro ⟨⟨encoded, flag⟩, day⟩
    have inside : 1 ≤ clockHour hour ∧ clockHour hour ≤ 12 := by
      unfold clockHour
      split <;> omega
    rw [rtcget_iff.mpr encoded, flag]
    dsimp only
    rw [if_pos inside]
    congr 1
    unfold clockHour
    by_cases late : 12 ≤ hour
    · rw [if_pos (decide_eq_true late)]
      split <;> split <;> omega
    · rw [decide_eq_false late, if_neg Bool.false_ne_true]
      split <;> split <;> omega

theorem rtcget_hour_iff :
    (rtcgetHour regB byte = some hour ∧ hour ≤ 23) ↔ EncodesHour regB byte hour ∧ hour ≤ 23 := by
  cases format : hasBits regB rtcsb24hr with
  | true =>
    unfold rtcgetHour
    rw [if_pos format, encodes_wide format, rtcget_iff]
  | false =>
    rw [rtcget_half_iff format]
    exact ⟨fun both => both.1, fun both => ⟨both, both.2⟩⟩

end

theorem in_range_iff {lo hi n : Nat} {field : Option Nat} :
    inRange lo hi field = some n ↔ field = some n ∧ lo ≤ n ∧ n ≤ hi := by
  rw [inRange, Option.filter_eq_some_iff, decide_eq_true_eq]

structure InRanges (ct : Clocktime) : Prop where
  sec : ct.sec ≤ 59
  min : ct.min ≤ 59
  hour : ct.hour ≤ 23
  day : 1 ≤ ct.day ∧ ct.day ≤ 31
  mon : 1 ≤ ct.mon ∧ ct.mon ≤ 12
  base : posixBaseYear ≤ ct.year

variable {rtc : Mem} {ct : Clocktime} {kernel : Kernel} {t : Int}

theorem rtc_clocktime_iff :
    rtcClocktime rtc = some ct ↔ Encodes rtc ct ∧ InRanges ct ∧ ct.dow = -1 := by
  constructor
  · intro read
    simp only [rtcClocktime, Option.bind_eq_bind, Option.bind_eq_some_iff, in_range_iff] at read
    obtain ⟨sec, ⟨secRead, -, secTop⟩, min, ⟨minRead, -, minTop⟩, hour, ⟨hourRead, -, hourTop⟩,
      day, ⟨dayRead, dayRange⟩, mon, ⟨monRead, monRange⟩, year, ⟨yearRead, -, yearTop⟩, century,
      centuryRead, rest⟩ := read
    split at rest
    · cases rest
    · next base =>
      obtain rfl := Option.some.inj rest
      have low : (century * 100 + year) % 100 = year := by omega
      have high : (century * 100 + year) / 100 = century := by omega
      refine ⟨⟨rtcget_iff.mp secRead, rtcget_iff.mp minRead, ?_, rtcget_iff.mp dayRead,
        rtcget_iff.mp monRead, ?_, ?_⟩, ⟨secTop, minTop, hourTop, dayRange, monRange,
        Nat.not_lt.mp base⟩, rfl⟩
      · exact (rtcget_hour_iff.mp ⟨hourRead, hourTop⟩).1
      · rw [low]
        exact rtcget_iff.mp yearRead
      · rw [high]
        exact rtcget_iff.mp centuryRead
  · rintro ⟨encodes, ranges, dow⟩
    obtain ⟨sec, min, hour, day, mon, year, dowNo⟩ := ct
    have whole : year / 100 * 100 + year % 100 = year := by omega
    have digits : year % 100 ≤ 99 := by omega
    have hourRead := (rtcget_hour_iff.mpr ⟨encodes.hour, ranges.hour⟩).1
    unfold rtcClocktime
    dsimp only
    rw [in_range_iff.mpr ⟨rtcget_iff.mpr encodes.sec, Nat.zero_le _, ranges.sec⟩,
      in_range_iff.mpr ⟨rtcget_iff.mpr encodes.min, Nat.zero_le _, ranges.min⟩,
      in_range_iff.mpr ⟨hourRead, Nat.zero_le _, ranges.hour⟩,
      in_range_iff.mpr ⟨rtcget_iff.mpr encodes.day, ranges.day⟩,
      in_range_iff.mpr ⟨rtcget_iff.mpr encodes.mon, ranges.mon⟩,
      in_range_iff.mpr ⟨rtcget_iff.mpr encodes.year, Nat.zero_le _, digits⟩,
      rtcget_iff.mpr encodes.century]
    show (if year / 100 * 100 + year % 100 < posixBaseYear then none
      else some (⟨sec, min, hour, day, mon, year / 100 * 100 + year % 100, -1⟩ : Clocktime)) = _
    rw [whole, if_neg (Nat.not_lt.mpr ranges.base), ← dow]

theorem encodes_dow (encodes : Encodes rtc ct) (dow : Int) : Encodes rtc { ct with dow := dow } :=
  ⟨encodes.sec, encodes.min, encodes.hour, encodes.day, encodes.mon, encodes.year,
    encodes.century⟩

theorem clocktime_ranges (valid : validClocktime ct = true) : InRanges ct := by
  obtain ⟨sec, min, hour, -, -, firstDay, lastDay, firstMonth, lastMonth, base⟩ :=
    of_decide_eq_true valid
  exact ⟨sec, min, hour, ⟨firstDay, lastDay⟩, ⟨firstMonth, lastMonth⟩, base⟩

section
variable {kernel : Kernel} (inverse : InverseClock kernel) (v : Vrtc)

theorem rtc_to_secs_range : rtcToSecs kernel v = brokenTime ∨ 0 ≤ rtcToSecs kernel v := by
  unfold rtcToSecs
  split
  · exact .inl rfl
  · split
    · exact .inl rfl
    · split
      · exact .inl rfl
      · next positive => exact .inr (Int.not_lt.mp positive)

include inverse

theorem rtc_to_secs_iff {t : Int} (positive : 0 ≤ t) :
    rtcToSecs kernel v = t ↔ Encodes v.rtcdev (kernel.clockTsToCt t) := by
  have known := positive_known positive
  constructor
  · intro read
    unfold rtcToSecs at read
    split at read
    · exact absurd read.symm known
    · next ct fields =>
      split at read
      · exact absurd read.symm known
      · next secs found =>
        split at read
        · exact absurd read.symm known
        · subst read
          have encoded := rtc_clocktime_iff.mp fields
          rw [(inverse.inverse ct secs encoded.2.1.base positive).mp found]
          exact encodes_dow encoded.1 _
  · intro encodes
    have ranges := clocktime_ranges (inverse.valid t positive)
    have fields : rtcClocktime v.rtcdev = some { kernel.clockTsToCt t with dow := -1 } := by
      apply rtc_clocktime_iff.mpr
      exact ⟨encodes_dow encodes (-1), ⟨ranges.sec, ranges.min, ranges.hour, ranges.day, ranges.mon,
        ranges.base⟩, rfl⟩
    have found := (inverse.inverse { kernel.clockTsToCt t with dow := -1 } t ranges.base
      positive).mpr rfl
    unfold rtcToSecs
    rw [fields]
    dsimp only
    rw [found]
    exact if_neg (Int.not_lt.mpr positive)

end

def flagHour (regB : BitVec 8) (hour : Nat) (stored : BitVec 8) : BitVec 8 :=
  if !hasBits regB rtcsb24hr && decide (12 ≤ hour) then stored ||| 0x80 else stored

theorem hour_stores {regB : BitVec 8} {hour : Nat} (day : hour ≤ 23) :
    ∃ stored, rtcset regB (hourField regB hour) = .ok stored ∧
      EncodesHour regB (flagHour regB hour stored) hour := by
  unfold flagHour
  cases format : hasBits regB rtcsb24hr with
  | true =>
    have same : hourField regB hour = hour := if_pos format
    obtain ⟨stored, set_, encoded⟩ := @rtcset_stores regB hour (by omega)
    rw [same]
    exact ⟨stored, set_, (encodes_wide format).mpr encoded⟩
  | false =>
    have same : hourField regB hour = clockHour hour := by
      unfold hourField clockHour
      rw [format, if_neg Bool.false_ne_true]
      split <;> split <;> omega
    have dial : clockHour hour ≤ 12 := by
      unfold clockHour
      split <;> omega
    obtain ⟨stored, set_, encoded⟩ := @rtcset_stores regB (clockHour hour) (by omega)
    have small : stored.toNat < 128 := by
      cases binary : hasBits regB rtcsbBin with
      | true =>
        have number := (encodes_binary binary).mp encoded
        omega
      | false =>
        obtain ⟨-, number⟩ := (encodes_bcd binary).mp encoded
        have digits : clockHour hour / 10 * 16 + clockHour hour % 10 < 128 := by omega
        rw [number, bin2bcd, BitVec.toNat_ofNat]
        exact Nat.lt_of_le_of_lt (Nat.mod_le _ _) digits
    have bits : ∀ b : BitVec 8, b.toNat < 128 →
        (b ||| 0x80) &&& 0x7f = b ∧ hasBits (b ||| 0x80) 0x80 = true ∧ b &&& 0x7f = b ∧
          hasBits b 0x80 = false := by
      decide
    obtain ⟨clear, flagged, low, plain⟩ := bits stored small
    rw [same]
    refine ⟨stored, set_, (encodes_half format).mpr ?_⟩
    by_cases late : 12 ≤ hour
    · rw [decide_eq_true late, Bool.not_false, Bool.and_true, if_pos rfl, clear, flagged]
      exact ⟨encoded, rfl⟩
    · rw [decide_eq_false late, Bool.and_false, if_neg Bool.false_ne_true, low, plain]
      exact ⟨encoded, rfl⟩

def isStamped (offset : Nat) : Prop :=
  offset = rtcSec ∨ offset = rtcMin ∨ offset = rtcHour ∨ offset = rtcDayOfWeek ∨
    offset = rtcDayOfMonth ∨ offset = rtcMonth ∨ offset = rtcYear ∨ offset = rtcCentury

theorem stamp_other {offset : Nat} (other : ¬ isStamped offset) (rtc : Mem)
    (sec min hour dow day mon year century : BitVec 8) :
    stampFields rtc sec min hour dow day mon year century offset = rtc offset := by
  simp only [isStamped, not_or] at other
  obtain ⟨sec_, min_, hour_, dow_, day_, mon_, year_, century_⟩ := other
  unfold stampFields
  rw [write8_other _ _ century_, write8_other _ _ year_, write8_other _ _ mon_,
    write8_other _ _ day_, write8_other _ _ dow_, write8_other _ _ hour_, write8_other _ _ min_,
    write8_other _ _ sec_]

theorem secs_to_rtc_stores (positive : 0 ≤ t) (valid : validClocktime (kernel.clockTsToCt t) = true)
    (year : (kernel.clockTsToCt t).year < 10000) (v : Vrtc) {force : Bool}
    (stores : (rtcHalted v && !force) = false) :
    ∃ w, secsToRtc kernel t v force = .ok w ∧ Encodes w.rtcdev (kernel.clockTsToCt t) ∧
      ∀ offset, ¬ isStamped offset → w.rtcdev offset = v.rtcdev offset := by
  have ranges := of_decide_eq_true valid
  obtain ⟨sec, setSec, secOf⟩ := @rtcset_stores v.regB (kernel.clockTsToCt t).sec (by omega)
  obtain ⟨min, setMin, minOf⟩ := @rtcset_stores v.regB (kernel.clockTsToCt t).min (by omega)
  obtain ⟨hour, setHour, hourOf⟩ := @hour_stores v.regB (kernel.clockTsToCt t).hour (by omega)
  obtain ⟨dow, setDow, -⟩ :=
    @rtcset_stores v.regB ((kernel.clockTsToCt t).dow.toNat + 1) (by omega)
  obtain ⟨day, setDay, dayOf⟩ := @rtcset_stores v.regB (kernel.clockTsToCt t).day (by omega)
  obtain ⟨mon, setMon, monOf⟩ := @rtcset_stores v.regB (kernel.clockTsToCt t).mon (by omega)
  obtain ⟨low, setLow, lowOf⟩ := @rtcset_stores v.regB ((kernel.clockTsToCt t).year % 100) (by omega)
  obtain ⟨high, setHigh, highOf⟩ :=
    @rtcset_stores v.regB ((kernel.clockTsToCt t).year / 100) (by omega)
  have stamp (offset : Nat) (other : ¬ isStamped offset) :=
    stamp_other other v.rtcdev sec min (flagHour v.regB (kernel.clockTsToCt t).hour hour) dow day
      mon low high
  refine ⟨{ v with
    rtcdev := stampFields v.rtcdev sec min (flagHour v.regB (kernel.clockTsToCt t).hour hour) dow day
      mon low high }, ?_, ⟨secOf, minOf, hourOf, dayOf, monOf, lowOf, highOf⟩, stamp⟩
  unfold secsToRtc
  rw [if_neg (Int.not_lt.mpr positive), stores, if_neg Bool.false_ne_true]
  dsimp only
  rw [if_pos valid, bind_ok setSec, bind_ok setMin, bind_ok setHour, bind_ok setDow,
    bind_ok setDay, bind_ok setMon, bind_ok setLow, bind_ok setHigh]
  rfl

def ValidFields (kernel : Kernel) (rtc : Mem) : Prop :=
  ∃ t, 0 ≤ t ∧ Encodes rtc (kernel.clockTsToCt t) ∧ (kernel.clockTsToCt t).year < 10000

def StoresBack (kernel : Kernel) : Prop :=
  ∀ (v : Vrtc) (t : Int) (force : Bool), 0 ≤ t → (kernel.clockTsToCt t).year ≤ 9999 →
    (force = true ∨ rtcHalted v = false) →
      ∃ w, secsToRtc kernel t v force = .ok w ∧ w.regB = v.regB ∧ rtcToSecs kernel w = t

/-- Fields that are not valid are rejected, and the others are stored again as they were. -/
structure ReadsBack (kernel : Kernel) (v : Vrtc) : Prop where
  rejects : rtcToSecs kernel v = brokenTime ↔ ¬ ValidFields kernel v.rtcdev
  reproduces : ∀ force, rtcToSecs kernel v ≠ brokenTime →
    ∃ w, secsToRtc kernel (rtcToSecs kernel v) v force = .ok w ∧
      ∀ offset, offset ≠ rtcDayOfWeek → w.rtcdev offset = v.rtcdev offset

/-- A century byte of three digits, in binary format, makes no date with the other fields. -/
def CenturyFits (kernel : Kernel) (rtc : Mem) : Prop :=
  hasBits (rtc rtcRegB) rtcsbBin = true → 100 ≤ (rtc rtcCentury).toNat →
    ∀ t, 0 ≤ t → ¬ Encodes rtc (kernel.clockTsToCt t)

theorem encodes_same {first second : Mem} (a : Encodes first ct) (b : Encodes second ct)
    (regB : first rtcRegB = second rtcRegB) {offset : Nat} (stamped_ : isStamped offset)
    (notDow : offset ≠ rtcDayOfWeek) : first offset = second offset := by
  obtain ⟨sec, min, hour, day, mon, year, century⟩ := a
  rw [regB] at sec min hour day mon year century
  rcases stamped_ with rfl | rfl | rfl | rfl | rfl | rfl | rfl | rfl
  · exact encodes_unique sec b.sec
  · exact encodes_unique min b.min
  · exact hour_unique hour b.hour
  · exact absurd rfl notDow
  · exact encodes_unique day b.day
  · exact encodes_unique mon b.mon
  · exact encodes_unique year b.year
  · exact encodes_unique century b.century

theorem reg_b_not_stamped : ¬ isStamped rtcRegB := by
  unfold isStamped
  decide

theorem stores_back (inverse : InverseClock kernel) : StoresBack kernel := by
  intro v t force positive year stores
  have free : (rtcHalted v && !force) = false := by
    obtain rfl | running := stores
    · rw [Bool.not_true, Bool.and_false]
    · rw [running, Bool.false_and]
  obtain ⟨w, stored, encodes, others⟩ := secs_to_rtc_stores positive (inverse.valid t positive)
    (Nat.lt_succ_of_le year) v free
  exact ⟨w, stored, others rtcRegB reg_b_not_stamped, (rtc_to_secs_iff inverse w positive).mpr encodes⟩

theorem reproduced (inverse : InverseClock kernel) (v : Vrtc) (positive : 0 ≤ t)
    (encodes : Encodes v.rtcdev (kernel.clockTsToCt t))
    (year : (kernel.clockTsToCt t).year < 10000) (force : Bool) :
    ∃ w, secsToRtc kernel t v force = .ok w ∧
      ∀ offset, offset ≠ rtcDayOfWeek → w.rtcdev offset = v.rtcdev offset := by
  cases held : rtcHalted v && !force with
  | true =>
    refine ⟨v, ?_, fun _ _ => rfl⟩
    unfold secsToRtc
    rw [if_neg (Int.not_lt.mpr positive), held, if_pos rfl]
  | false =>
    obtain ⟨w, stored, again, others⟩ :=
      secs_to_rtc_stores positive (inverse.valid t positive) year v held
    refine ⟨w, stored, fun offset notDow => ?_⟩
    by_cases stamped_ : isStamped offset
    · exact encodes_same again encodes (others rtcRegB reg_b_not_stamped) stamped_ notDow
    · exact others offset stamped_

theorem short_century (fits : CenturyFits kernel rtc) (positive : 0 ≤ t)
    (encodes : Encodes rtc (kernel.clockTsToCt t)) : (kernel.clockTsToCt t).year < 10000 := by
  have century := encodes.century
  cases format : hasBits (rtc rtcRegB) rtcsbBin with
  | true =>
    rw [encodes_binary format] at century
    apply Nat.not_le.mp
    intro long
    exact fits format (by omega) t positive encodes
  | false =>
    have digits := ((encodes_bcd format).mp century).1
    omega

theorem reads_back_iff (inverse : InverseClock kernel) (v : Vrtc) :
    ReadsBack kernel v ↔ CenturyFits kernel v.rtcdev := by
  constructor
  · intro reads binary long t positive encodes
    have read := (rtc_to_secs_iff inverse v positive).mpr encodes
    have known : rtcToSecs kernel v ≠ brokenTime := by
      rw [read]
      exact positive_known positive
    obtain ⟨s, after, other, year⟩ := not_not.mp (mt reads.rejects.mpr known)
    have same := (rtc_to_secs_iff inverse v after).mpr other
    have century := encodes.century
    rw [← read, same, encodes_binary binary] at century
    omega
  · intro fits
    refine ⟨⟨fun broken valid => ?_, fun invalid => ?_⟩, fun force known => ?_⟩
    · obtain ⟨t, positive, encodes, -⟩ := valid
      have read := (rtc_to_secs_iff inverse v positive).mpr encodes
      exact positive_known positive (read.symm.trans broken)
    · obtain broken | positive := @rtc_to_secs_range kernel v
      · exact broken
      · have encodes := (rtc_to_secs_iff inverse v positive).mp rfl
        exact absurd ⟨_, positive, encodes, short_century fits positive encodes⟩ invalid
    · have positive := (@rtc_to_secs_range kernel v).resolve_left known
      have encodes := (rtc_to_secs_iff inverse v positive).mp rfl
      exact reproduced inverse v positive encodes (short_century fits positive encodes) force

/-- Times are read back in every format; fields are rejected exactly when they are not valid, and
    otherwise reproduced, exactly when a century of three digits makes no date. -/
theorem rtc_round_trip {kernel : Kernel} (inverse : InverseClock kernel) :
    StoresBack kernel ∧ ∀ v, ReadsBack kernel v ↔ CenturyFits kernel v.rtcdev :=
  ⟨stores_back inverse, reads_back_iff inverse⟩

def formatted (regB : BitVec 8) : Vrtc :=
  ⟨rtcRegD, 0, 0, write8 (fun _ => 0) rtcRegB regB, ⟨false, false⟩, 0⟩

theorem leap_day_round_trip :
    (∃ w, secsToRtc gregorianKernel 68169600 (formatted 0) true = .ok w ∧ w.regB = 0 ∧
      rtcToSecs gregorianKernel w = 68169600) ∧ ReadsBack gregorianKernel (formatted 0) := by
  obtain ⟨stores, reads⟩ := rtc_round_trip gregorian_inverse
  constructor
  · exact stores (formatted 0) 68169600 true (by decide) (by decide) (.inl rfl)
  · exact (reads (formatted 0)).mpr fun never => absurd never (by decide)

def longCentury : Vrtc :=
  { formatted 0x06 with
    rtcdev := stampFields (formatted 0x06).rtcdev 0 0 0 0 1 1 0 100 }

theorem long_century_read : ¬ ∀ v, ReadsBack gregorianKernel v := by
  intro every
  have fits := (reads_back_iff gregorian_inverse longCentury).mp (every longCentury)
  have binary : hasBits (longCentury.rtcdev rtcRegB) rtcsbBin = true := by decide
  have wide : hasBits (longCentury.rtcdev rtcRegB) rtcsb24hr = true := by decide
  have number {byte : BitVec 8} {n : Nat} (same : byte.toNat = n) :
      EncodesNumber (longCentury.rtcdev rtcRegB) byte n := (encodes_binary binary).mpr same
  have fields : Encodes longCentury.rtcdev ⟨0, 0, 0, 1, 1, 10000, 0⟩ :=
    ⟨number rfl, number rfl, (encodes_wide wide).mpr (number rfl), number rfl, number rfl,
      number rfl, number rfl⟩
  have date := @valid_date_time ⟨0, 0, 0, 1, 1, 10000, 0⟩ (by decide) _ rfl
  apply fits binary (by decide) _ (Int.natCast_nonneg _)
  rw [date]
  exact encodes_dow fields _

end Rtc
