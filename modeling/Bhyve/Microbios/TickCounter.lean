import Bhyve.Lib.StepRuns
import Bhyve.Microbios.Int15

/-!
The tick counter of the BIOS data area and its writers: the timer interrupt, the host on every
hypercall, and the two implementations of INT 1Ah AH=00h and 01h. Interrupt acknowledgement, the
INT 1Ch hook and what a hypercall stores into a buffer of the guest are left out.
-/
namespace Microbios
open ByteMemory StepRuns
open BitVec hiding and_self

def clkDtimerLo : Nat := bdaTimerCounter
def clkDtimerHi : Nat := bdaTimerCounter + 2
def clkRollover : Nat := bdaTimerCounter + 4

def ticksPerDay : Nat := 0x1800b0

structure TimeRegs where
  al : BitVec 8
  cx : BitVec 16
  dx : BitVec 16
  cf : Bool

structure TimeResult where
  mem : Mem
  regs : TimeRegs

inductive Implementation where
  | assembly
  | c

inductive TimeService where
  | getCounter
  | setCounter

variable (mem : Mem)

def int1a00 (regs : TimeRegs) : TimeResult :=
  ⟨mem, { regs with al := 0, cx := read16 mem clkDtimerHi, dx := read16 mem clkDtimerLo }⟩

def int1a01 (regs : TimeRegs) : TimeResult :=
  ⟨write16 (write16 mem clkDtimerHi regs.cx) clkDtimerHi regs.dx, regs⟩

def handleInt1a (regs : TimeRegs) : TimeService → TimeResult
  | .getCounter =>
      let counter := read32 mem bdaTimerCounter
      ⟨mem, { al := 0, cx := (counter >>> 16).setWidth 16,
              dx := (counter &&& 0xffff).setWidth 16, cf := false }⟩
  | .setCounter =>
      ⟨write32 mem bdaTimerCounter ((regs.cx.setWidth 32 <<< 16) ||| regs.dx.setWidth 32), regs⟩

variable (implementation : Implementation)

def int1a (service : TimeService) (mem : Mem) (regs : TimeRegs) : TimeResult :=
  match implementation, service with
  | .assembly, .getCounter => int1a00 mem regs
  | .assembly, .setCounter => int1a01 mem regs
  | .c, service => handleInt1a mem regs service

/-- The timer interrupt. The comparison with a day's ticks is signed. -/
def int8 (mem : Mem) : Mem :=
  let mem := write32 mem clkDtimerLo (read32 mem clkDtimerLo + 1)
  if (read32 mem clkDtimerLo).slt 0x1800b0 then mem
  else write8 (write32 mem clkDtimerLo 0) clkRollover 1

def countHypercall (mem : Mem) : Mem :=
  write32 mem bdaTimerCounter (read32 mem bdaTimerCounter + 1)

def setThenGet (mem : Mem) (regs : TimeRegs) : TimeResult :=
  let set := int1a implementation .setCounter mem regs
  int1a implementation .getCounter set.mem set.regs

def CounterReturned (mem : Mem) (regs : TimeRegs) : Prop :=
  (setThenGet implementation mem regs).regs.cx = regs.cx ∧
    (setThenGet implementation mem regs).regs.dx = regs.dx ∧
    ∀ a, a < bdaTimerCounter ∨ clkRollover ≤ a →
      (setThenGet implementation mem regs).mem a = mem a

def ImplementationsAgree (regs : TimeRegs) : Prop :=
  let assembly := setThenGet .assembly mem regs
  let c := setThenGet .c mem regs
  assembly.regs.al = c.regs.al ∧ assembly.regs.cx = c.regs.cx ∧ assembly.regs.dx = c.regs.dx ∧
    assembly.mem = c.mem

inductive CounterEvent where
  | tick
  | hypercall
  | set (implementation : Implementation) (regs : TimeRegs)

def counterStep (mem : Mem) : CounterEvent → Mem
  | .tick => int8 mem
  | .hypercall => countHypercall mem
  | .set implementation regs => (int1a implementation .setCounter mem regs).mem

def counter (mem : Mem) : Nat := (read32 mem bdaTimerCounter).toNat

def InRangeSetting : CounterEvent → Prop
  | .set _ regs => regs.cx.toNat * 0x10000 + regs.dx.toNat < ticksPerDay
  | _ => True

def Wraps (mem : Mem) : CounterEvent → Prop
  | .set _ _ => False
  | event => counter (counterStep mem event) < counter mem

def CounterKept (event : CounterEvent) : Prop :=
  counter (counterStep mem event) < ticksPerDay ∧
    (Wraps mem event → counterStep mem event clkRollover = 1)

/-- No hypercall is made at the last tick of the day, and what the assembly sets is a time of the
    day with DX above the word that is there. -/
def CounterSafe (mem : Mem) : CounterEvent → Prop
  | .tick => True
  | .hypercall => counter mem ≠ ticksPerDay - 1
  | .set .assembly regs => regs.dx.toNat * 0x10000 + (read16 mem clkDtimerLo).toNat < ticksPerDay
  | .set .c _ => True

theorem append_to_nat (high low : BitVec 16) :
    (high ++ low).toNat = high.toNat * 0x10000 + low.toNat := by
  rw [toNat_append, ← Nat.shiftLeft_add_eq_or_of_lt low.isLt, Nat.shiftLeft_eq]

theorem halves_joined (high low : BitVec 16) :
    (high.setWidth 32 <<< 16) ||| low.setWidth 32 = high ++ low := by
  apply eq_of_getLsbD_eq
  intro i inside
  rw [getLsbD_append (x := high)]
  by_cases below : i < 16
  · simp [below, inside]
  · have none : low.getLsbD i = false := getLsbD_of_ge low i (by omega)
    simp [below, inside, none]

theorem upper_half (high low : BitVec 16) :
    ((high ++ low : BitVec 32) >>> 16).setWidth 16 = high := by
  rw [← toNat_inj, toNat_setWidth, toNat_ushiftRight,
    append_to_nat, Nat.shiftRight_eq_div_pow]
  omega

theorem lower_half (high low : BitVec 16) :
    ((high ++ low : BitVec 32) &&& 0xffff).setWidth 16 = low := by
  rw [← toNat_inj, toNat_setWidth, toNat_and, append_to_nat]
  have cut : (high.toNat * 0x10000 + low.toNat) &&& 0xffff =
      (high.toNat * 0x10000 + low.toNat) % 2 ^ 16 := Nat.and_two_pow_sub_one_eq_mod _ 16
  have narrow := low.isLt
  have kept : (high.toNat * 0x10000 + low.toNat) % 2 ^ 16 = low.toNat := by omega
  exact (congrArg (· % 2 ^ 16) (cut.trans kept)).trans (Nat.mod_eq_of_lt narrow)

theorem counter_halves :
    counter mem = (read16 mem clkDtimerHi).toNat * 0x10000 + (read16 mem clkDtimerLo).toNat :=
  append_to_nat _ _

variable (regs : TimeRegs)

theorem c_sets :
    int1a .c .setCounter mem regs = ⟨write32 mem bdaTimerCounter (regs.cx ++ regs.dx), regs⟩ := by
  simp only [int1a, handleInt1a, halves_joined]

theorem assembly_sets : read16 (int1a01 mem regs).mem clkDtimerHi = regs.dx ∧
      read16 (int1a01 mem regs).mem clkDtimerLo = read16 mem clkDtimerLo := by
  constructor
  · exact read16_write16_same _ _ _
  · dsimp only [int1a01]
    rw [read16_write16_other _ _ (by decide), read16_write16_other _ _ (by decide)]

theorem assembly_gets : (setThenGet .assembly mem regs).regs =
      { regs with al := 0, cx := regs.dx, dx := read16 mem clkDtimerLo } := by
  obtain ⟨high, low⟩ := assembly_sets mem regs
  simp only [setThenGet, int1a, int1a00]
  rw [high, low]
  rfl

theorem assembly_elsewhere {a : Nat} (outside : a < bdaTimerCounter ∨ clkRollover ≤ a) :
    (setThenGet .assembly mem regs).mem a = mem a := by
  have apart : a ≠ clkDtimerHi ∧ a ≠ clkDtimerHi + 1 := by
    unfold clkRollover at outside
    unfold clkDtimerHi
    omega
  simp only [setThenGet, int1a, int1a00, int1a01]
  rw [write16_other _ _ apart.1 apart.2, write16_other _ _ apart.1 apart.2]

theorem write16_twice (a : Nat) (v : BitVec 16) :
    write16 (write16 mem a v) a v = write16 mem a v := by
  funext x
  simp only [write16, write8]
  grind

theorem write16_in_place (a : Nat) : write16 mem a (read16 mem a) = mem := by
  have low : (read16 mem a).extractLsb' 0 8 = mem a := extractLsb'_append_eq_right
  have high : (read16 mem a).extractLsb' 8 8 = mem (a + 1) := extractLsb'_append_eq_left
  rw [write16, low, high]
  funext x
  simp only [write8]
  grind

theorem words_in_place {mem : Mem} {v : BitVec 16} (lower : v = read16 mem clkDtimerLo) :
    write32 mem bdaTimerCounter (v ++ v) = write16 mem clkDtimerHi v := by
  have low : (v ++ v : BitVec 32).extractLsb' 0 16 = v := extractLsb'_append_eq_right
  have high : (v ++ v : BitVec 32).extractLsb' 16 16 = v := extractLsb'_append_eq_left
  rw [write32, low, high]
  have kept : write16 mem bdaTimerCounter v = mem := by
    rw [lower]
    exact write16_in_place mem clkDtimerLo
  rw [kept]
  rfl

theorem c_gets : (setThenGet .c mem regs).regs = ⟨0, regs.cx, regs.dx, false⟩ ∧
      (setThenGet .c mem regs).mem = write32 mem bdaTimerCounter (regs.cx ++ regs.dx) := by
  unfold setThenGet
  rw [c_sets]
  simp only [int1a, handleInt1a, read32_write32_same, upper_half, lower_half, and_self]

theorem set_get_iff : CounterReturned .assembly mem regs ∧ ImplementationsAgree mem regs ↔
      regs.cx = regs.dx ∧ regs.dx = read16 mem clkDtimerLo := by
  have gets := assembly_gets mem regs
  constructor
  · rintro ⟨⟨cx, dx, -⟩, -⟩
    rw [gets] at cx dx
    exact ⟨cx.symm, dx.symm⟩
  · rintro ⟨same, lower⟩
    refine ⟨⟨?_, ?_, fun a outside => assembly_elsewhere mem regs outside⟩, ?_⟩
    · rw [gets]
      exact same.symm
    · exact lower.symm
    · obtain ⟨c_regs, c_mem⟩ := c_gets mem regs
      unfold ImplementationsAgree
      dsimp only
      rw [gets, c_regs, c_mem]
      refine ⟨rfl, same.symm, lower.symm, ?_⟩
      have stored : (setThenGet .assembly mem regs).mem =
          write16 (write16 mem clkDtimerHi regs.cx) clkDtimerHi regs.dx := rfl
      rw [stored, same]
      exact (write16_twice mem clkDtimerHi regs.dx).trans (words_in_place lower).symm

theorem write_sets (v : BitVec 32) : counter (write32 mem bdaTimerCounter v) = v.toNat := by
  rw [counter, read32_write32_same]

theorem hypercall_counts {mem : Mem} (inside : counter mem < ticksPerDay) :
    counter (countHypercall mem) = counter mem + 1 := by
  unfold ticksPerDay at inside
  rw [countHypercall, write_sets, toNat_add]
  exact Nat.mod_eq_of_lt (by rw [← counter]; simp; omega)

theorem tick_counts {mem : Mem} (inside : counter mem < ticksPerDay) :
    (counter mem + 1 < ticksPerDay ∧ counter (int8 mem) = counter mem + 1) ∨
      (counter (int8 mem) = 0 ∧ int8 mem clkRollover = 1) := by
  have counts := hypercall_counts inside
  have unfolded : int8 mem = if (read32 (countHypercall mem) clkDtimerLo).slt 0x1800b0
      then countHypercall mem
      else write8 (write32 (countHypercall mem) clkDtimerLo 0) clkRollover 1 := rfl
  have signed : (read32 (countHypercall mem) clkDtimerLo).slt 0x1800b0 = true ↔
      counter mem + 1 < ticksPerDay := by
    have value : (read32 (countHypercall mem) clkDtimerLo).toNat = counter mem + 1 := counts
    unfold ticksPerDay at inside ⊢
    rw [slt_iff_toInt_lt, toInt_eq_toNat_of_lt (by omega), value]
    have day : (0x1800b0 : BitVec 32).toInt = 0x1800b0 := by decide
    omega
  rw [unfolded]
  by_cases below : counter mem + 1 < ticksPerDay
  · rw [if_pos (signed.mpr below)]
    exact .inl ⟨below, counts⟩
  · rw [if_neg (mt signed.mp below)]
    refine .inr ⟨?_, write8_same _ _ _⟩
    have zero : read32 (write8 (write32 (countHypercall mem) clkDtimerLo 0) clkRollover 1)
        bdaTimerCounter = read32 (write32 (countHypercall mem) clkDtimerLo 0) bdaTimerCounter := by
      apply read32_congr
      intro i within
      exact write8_other _ _ (by unfold clkRollover; omega)
    rw [counter, zero]
    exact write_sets _ 0

theorem setting_counts :
    counter (int1a .c .setCounter mem regs).mem = regs.cx.toNat * 0x10000 + regs.dx.toNat ∧
      counter (int1a .assembly .setCounter mem regs).mem =
        regs.dx.toNat * 0x10000 + (read16 mem clkDtimerLo).toNat := by
  obtain ⟨high, low⟩ := assembly_sets mem regs
  constructor
  · rw [c_sets]
    exact (write_sets _ _).trans (append_to_nat _ _)
  · rw [counter_halves]
    simp only [int1a]
    rw [high, low]

theorem step_kept_iff {mem : Mem} (inside : counter mem < ticksPerDay) {event : CounterEvent}
    (proper : InRangeSetting event) : CounterKept mem event ↔ CounterSafe mem event := by
  cases event with
  | tick =>
    simp only [CounterSafe, iff_true]
    rcases tick_counts inside with ⟨below, counts⟩ | ⟨zero, marked⟩
    · refine ⟨?_, ?_⟩
      · exact (congrArg (· < ticksPerDay) counts).mpr below
      · intro wraps
        simp only [Wraps, counterStep] at wraps
        omega
    · refine ⟨?_, fun _ => marked⟩
      exact (congrArg (· < ticksPerDay) zero).mpr (by decide)
  | hypercall =>
    have counts := hypercall_counts inside
    simp only [CounterKept, CounterSafe, Wraps, counterStep]
    omega
  | set implementation regs =>
    obtain ⟨c, assembly⟩ := setting_counts mem regs
    cases implementation with
    | assembly => simp only [CounterKept, CounterSafe, Wraps, counterStep, assembly, false_implies,
        and_true]
    | c =>
      simp only [InRangeSetting] at proper
      simp only [CounterKept, CounterSafe, Wraps, counterStep, c, false_implies, and_true, proper]

/-- AH=01h gives its value back, and the counter stays inside the day, exactly when the assembly
    finds its words in place and no hypercall is made at the last tick of the day. -/
theorem tick_counter_iff (mem : Mem) (regs : TimeRegs) (events : List CounterEvent)
    (start : counter mem < ticksPerDay) (proper : ∀ event ∈ events, InRangeSetting event) :
    (CounterReturned .assembly mem regs ∧ ImplementationsAgree mem regs ↔
      regs.cx = regs.dx ∧ regs.dx = read16 mem clkDtimerLo) ∧
    (Along counterStep CounterKept mem events ↔ Along counterStep CounterSafe mem events) := by
  refine ⟨set_get_iff mem regs, ?_⟩
  induction events generalizing mem with
  | nil => exact Iff.rfl
  | cons event rest ih =>
    have here := step_kept_iff start (proper event List.mem_cons_self)
    have later (kept : CounterKept mem event) :=
      ih (counterStep mem event) kept.1 fun e inside => proper e (List.mem_cons_of_mem event inside)
    constructor
    · rintro ⟨kept, after⟩
      exact ⟨here.mp kept, (later kept).mp after⟩
    · rintro ⟨safe, after⟩
      have kept := here.mpr safe
      exact ⟨kept, (later kept).mpr after⟩

def lastTick : Mem := write32 (fun _ => 0) bdaTimerCounter 0x1800af

theorem tick_counter_iff_midnight : (CounterReturned .assembly lastTick ⟨0, 0, 0, false⟩ ∧
        ImplementationsAgree lastTick ⟨0, 0, 0, false⟩ ↔
      (0 : BitVec 16) = 0 ∧ (0 : BitVec 16) = read16 lastTick clkDtimerLo) ∧
    (Along counterStep CounterKept lastTick [.tick, .hypercall] ↔
      Along counterStep CounterSafe lastTick [.tick, .hypercall]) :=
  tick_counter_iff lastTick ⟨0, 0, 0, false⟩ [.tick, .hypercall] (by decide)
    (by
      intro event inside
      simp only [List.mem_cons, List.not_mem_nil, or_false] at inside
      rcases inside with rfl | rfl <;> trivial)

theorem tick_lost_at_midnight :
    (setThenGet .assembly (fun _ => 0) ⟨0, 0, 1, false⟩).regs = ⟨0, 1, 0, false⟩ ∧
      ¬ CounterReturned .assembly (fun _ => 0) ⟨0, 0, 1, false⟩ ∧
      counter lastTick < ticksPerDay ∧
      counter (counterStep lastTick .hypercall) = ticksPerDay := by
  refine ⟨by rw [assembly_gets]; rfl, ?_, by decide, by decide⟩
  intro returned
  have upper := returned.1
  exact absurd upper (by decide)
end Microbios
