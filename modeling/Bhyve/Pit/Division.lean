import Bhyve.Pit.Vatpit

namespace Pit
open StepRuns

section
variable {s : Vatpit} {n : Fin 3}

theorem set_channel (s : Vatpit) (n : Fin 3) (c : Channel) : (s.set n c).channel n = c :=
  Function.update_self ..

theorem set_other (s : Vatpit) {n m : Fin 3} (apart : m ≠ n) (c : Channel) :
    (s.set n c).channel m = s.channel m :=
  Function.update_of_ne apart ..

def OutputDefined (c : Channel) : Prop := c.mode = timerSqWave → c.initial ≠ 0

theorem remainder_ok {initial : BitVec 16} (counted : initial ≠ 0) (ticks : BitVec 64) :
    remainder ticks initial = .ok (ticks % initial.setWidth 64) := if_neg counted

theorem get_out_ok (defined : OutputDefined (s.channel n)) :
    ∃ out s', vatpitGetOut s n = .ok (out, s') ∧ s'.channel = s.channel := by
  unfold vatpitGetOut
  by_cases terminal : (s.channel n).mode = timerIntTc
  · simp only [terminal, ↓reduceIte]
    exact ⟨_, _, rfl, rfl⟩
  · by_cases square : (s.channel n).mode = timerSqWave
    · have other : timerSqWave ≠ timerIntTc := by decide
      simp only [square, other, ↓reduceIte, remainder_ok (defined square)]
      exact ⟨_, _, rfl, rfl⟩
    · simp only [terminal, square, ↓reduceIte]
      exact ⟨_, _, rfl, rfl⟩

theorem get_out_traps (undefined : ¬ OutputDefined (s.channel n)) :
    vatpitGetOut s n = .error .divide := by
  obtain ⟨square, empty⟩ := Classical.not_imp.mp undefined
  have other : timerSqWave ≠ timerIntTc := by decide
  unfold vatpitGetOut
  simp only [square, other, ↓reduceIte, remainder, Classical.not_not.mp empty]
  rfl

def Counted (s : Vatpit) (n : Fin 3) (s' : Vatpit) : Prop :=
  (s'.channel n).mode = (s.channel n).mode ∧ (s'.channel n).slatched = (s.channel n).slatched ∧
    ∀ m, m ≠ n → s'.channel m = s.channel m

theorem count_repaired (s : Vatpit) (n : Fin 3) :
    ((countRepaired s n).channel n).initial ≠ 0 ∧ Counted s n (countRepaired s n) := by
  unfold countRepaired
  by_cases empty : (s.channel n).initial = 0
  · rw [if_pos empty]
    simp only [Counted, set_channel]
    exact ⟨by decide, trivial, trivial, fun m apart => set_other (binuptime s).2 apart _⟩
  · rw [if_neg empty]
    exact ⟨empty, rfl, rfl, fun m _ => rfl⟩

theorem count_at_ok {c : Channel} (counted : c.initial ≠ 0) (ticks : BitVec 64) :
    ∃ lval, countAt c ticks = .ok lval := by
  unfold countAt
  rw [remainder_ok counted, remainder_ok counted]
  split
  · exact ⟨_, rfl⟩
  · exact ⟨_, rfl⟩

theorem update_counter_ok (s : Vatpit) (n : Fin 3) (latch : Bool) :
    ∃ lval s', pitUpdateCounter s n latch = .ok (lval, s') ∧ Counted s n s' ∧
      ((s.channel n).olbyte = 0 → (s'.channel n).initial ≠ 0) := by
  unfold pitUpdateCounter
  by_cases full : (latch && decide ((s.channel n).olbyte ≠ 0)) = true
  · rw [if_pos full]
    refine ⟨0, s, rfl, ⟨rfl, rfl, fun m _ => rfl⟩, fun empty => ?_⟩
    exact absurd empty (of_decide_eq_true ((Bool.and_eq_true _ _).mp full).2)
  · obtain ⟨counted, mode, slatched, others⟩ := count_repaired s n
    obtain ⟨lval, value⟩ := count_at_ok counted (vatpitDeltaTicks (countRepaired s n) n).1
    have same : (vatpitDeltaTicks (countRepaired s n) n).2.channel = (countRepaired s n).channel :=
      rfl
    rw [if_neg full]
    simp only [same, value]
    refine ⟨lval, _, rfl, ?_⟩
    cases latch with
    | false => exact ⟨⟨mode, slatched, others⟩, fun _ => counted⟩
    | true =>
      simp only [↓reduceIte, Counted, set_channel]
      refine ⟨⟨mode, slatched, fun m apart => ?_⟩, fun _ => counted⟩
      rw [set_other _ apart]
      exact others m apart

theorem count_readback_ok (s : Vatpit) (n : Fin 3) (cmd : BitVec 8) :
    ∃ s', countReadback s n cmd = .ok s' ∧ Counted s n s' ∧
      ((hasBits cmd timerRbLctr = false ∧ (s.channel n).olbyte = 0 ∧ (s'.channel n).initial ≠ 0) ∨
        (¬ (hasBits cmd timerRbLctr = false ∧ (s.channel n).olbyte = 0) ∧ s' = s)) := by
  unfold countReadback
  by_cases latch : hasBits cmd timerRbLctr = false ∧ (s.channel n).olbyte = 0
  · obtain ⟨lval, s', done, counted, initial⟩ := update_counter_ok s n true
    simp only [latch.1, latch.2, done, Bool.not_false, decide_true, Bool.and_true, ↓reduceIte]
    exact ⟨s', rfl, counted, .inl ⟨trivial, trivial, initial latch.2⟩⟩
  · have other : (!hasBits cmd timerRbLctr && decide ((s.channel n).olbyte = 0)) ≠ true := by
      simpa [Bool.and_eq_true, decide_eq_true_eq] using latch
    rw [if_neg other]
    exact ⟨s, rfl, ⟨rfl, rfl, fun m _ => rfl⟩, .inr ⟨latch, rfl⟩⟩

def StatusAsked (cmd : BitVec 8) (c : Channel) : Prop :=
  hasBits cmd timerRbLstatus = false ∧ c.slatched = false

theorem status_readback_ok {cmd : BitVec 8}
    (defined : StatusAsked cmd (s.channel n) → OutputDefined (s.channel n)) :
    ∃ s', statusReadback s n cmd = .ok s' ∧ ∀ m, m ≠ n → s'.channel m = s.channel m := by
  unfold statusReadback
  by_cases asked : StatusAsked cmd (s.channel n)
  · have taken : OutputDefined ((s.set n { s.channel n with slatched := true }).channel n) := by
      rw [set_channel]
      exact defined asked
    obtain ⟨out, s', done, same⟩ := get_out_ok taken
    have kept : ∀ c m, m ≠ n → (s'.set n c).channel m = s.channel m := by
      intro c m apart
      rw [set_other _ apart, same, set_other _ apart]
    simp only [asked.1, asked.2, Bool.not_false, Bool.and_true, ↓reduceIte, done]
    split
    · exact ⟨_, rfl, kept _⟩
    · refine ⟨_, rfl, fun m apart => ?_⟩
      rw [set_other _ apart, set_other _ apart]
  · have other : (!hasBits cmd timerRbLstatus && !(s.channel n).slatched) ≠ true := by
      simpa [StatusAsked, Bool.and_eq_true] using asked
    rw [if_neg other]
    exact ⟨s, rfl, fun m _ => rfl⟩

theorem status_readback_traps {cmd : BitVec 8} (asked : StatusAsked cmd (s.channel n))
    (undefined : ¬ OutputDefined (s.channel n)) : statusReadback s n cmd = .error .divide := by
  have taken : ¬ OutputDefined ((s.set n { s.channel n with slatched := true }).channel n) := by
    rw [set_channel]
    exact undefined
  have both : (!hasBits cmd timerRbLstatus && !(s.channel n).slatched) = true := by
    rw [asked.1, asked.2]
    rfl
  have mode : ((s.set n { s.channel n with slatched := true }).channel n).mode = timerSqWave := by
    rw [set_channel]
    exact (Classical.not_imp.mp undefined).1
  unfold statusReadback
  rw [if_pos both]
  rw [if_pos (Or.inr mode), get_out_traps taken]
  rfl

def ReadbackDefined (cmd : BitVec 8) (c : Channel) : Prop :=
  StatusAsked cmd c → OutputDefined c ∨ (hasBits cmd timerRbLctr = false ∧ c.olbyte = 0)

theorem readback1_ok {cmd : BitVec 8} (defined : ReadbackDefined cmd (s.channel n)) :
    ∃ s', pitReadback1 s n cmd = .ok s' ∧ ∀ m, m ≠ n → s'.channel m = s.channel m := by
  obtain ⟨s1, counted, ⟨mode, slatched, others⟩, latched⟩ := count_readback_ok s n cmd
  have ready : StatusAsked cmd (s1.channel n) → OutputDefined (s1.channel n) := by
    rintro ⟨low, free⟩
    rcases latched with ⟨-, -, initial⟩ | ⟨unlatched, rfl⟩
    · exact fun _ => initial
    · exact (defined ⟨low, free⟩).resolve_right unlatched
  obtain ⟨s2, read, kept⟩ := status_readback_ok ready
  refine ⟨s2, ?_, fun m apart => (kept m apart).trans (others m apart)⟩
  unfold pitReadback1
  rw [counted]
  exact read

theorem readback1_traps {cmd : BitVec 8} (undefined : ¬ ReadbackDefined cmd (s.channel n)) :
    pitReadback1 s n cmd = .error .divide := by
  obtain ⟨asked, neither⟩ := Classical.not_imp.mp undefined
  obtain ⟨unset, unlatched⟩ := not_or.mp neither
  obtain ⟨s1, counted, -, latched⟩ := count_readback_ok s n cmd
  rcases latched with ⟨low, empty, -⟩ | ⟨-, rfl⟩
  · exact absurd ⟨low, empty⟩ unlatched
  · unfold pitReadback1
    rw [counted]
    exact status_readback_traps asked unset

def ReadsBack (cmd : BitVec 8) (n : Fin 3) : Prop :=
  (n = channel0 ∧ hasBits cmd timerRbCtr0 = true) ∨ (n = channel1 ∧ hasBits cmd timerRbCtr1 = true) ∨
    (n = channel2 ∧ hasBits cmd timerRbCtr2 = true)

theorem readback_stage {cmd : BitVec 8} (chosen : Bool) (start : Vatpit)
    (same : s.channel n = start.channel n) : (∃ s', readbackIf chosen s n cmd = .ok s' ∧
        ∀ m, m ≠ n → s'.channel m = s.channel m) ∧
      (chosen = true → ReadbackDefined cmd (start.channel n)) ∨
    (chosen = true ∧ ¬ ReadbackDefined cmd (start.channel n) ∧
      readbackIf chosen s n cmd = .error .divide) := by
  cases chosen with
  | false => exact .inl ⟨⟨s, rfl, fun m _ => rfl⟩, nofun⟩
  | true =>
    rw [← same]
    by_cases defined : ReadbackDefined cmd (s.channel n)
    · exact .inl ⟨readback1_ok defined, fun _ => defined⟩
    · exact .inr ⟨rfl, defined, readback1_traps defined⟩

theorem readback_iff (s : Vatpit) (cmd : BitVec 8) :
    (∃ s', pitReadback s cmd = .ok s') ↔ ∀ n, ReadsBack cmd n → ReadbackDefined cmd (s.channel n) := by
  unfold pitReadback
  have apart01 : channel1 ≠ channel0 := by decide
  have apart02 : channel2 ≠ channel0 := by decide
  have apart12 : channel2 ≠ channel1 := by decide
  have split : (∀ n, ReadsBack cmd n → ReadbackDefined cmd (s.channel n)) ↔
      (hasBits cmd timerRbCtr0 = true → ReadbackDefined cmd (s.channel channel0)) ∧
      (hasBits cmd timerRbCtr1 = true → ReadbackDefined cmd (s.channel channel1)) ∧
      (hasBits cmd timerRbCtr2 = true → ReadbackDefined cmd (s.channel channel2)) := by
    constructor
    · intro each
      exact ⟨fun low => each _ (.inl ⟨rfl, low⟩), fun low => each _ (.inr (.inl ⟨rfl, low⟩)),
        fun low => each _ (.inr (.inr ⟨rfl, low⟩))⟩
    · rintro ⟨first, second, third⟩ n (⟨rfl, low⟩ | ⟨rfl, low⟩ | ⟨rfl, low⟩)
      · exact first low
      · exact second low
      · exact third low
  rw [split]
  rcases @readback_stage s channel0 cmd (hasBits cmd timerRbCtr0) s rfl with
    ⟨⟨s0, done0, kept0⟩, defined0⟩ | ⟨chosen, undefined, traps⟩
  · simp only [bind, Except.bind, done0]
    rcases @readback_stage s0 channel1 cmd (hasBits cmd timerRbCtr1) s (kept0 _ apart01) with
      ⟨⟨s1, done1, kept1⟩, defined1⟩ | ⟨chosen, undefined, traps⟩
    · have same : s1.channel channel2 = s.channel channel2 :=
        (kept1 _ apart12).trans (kept0 _ apart02)
      simp only [done1]
      rcases @readback_stage s1 channel2 cmd (hasBits cmd timerRbCtr2) s same with
        ⟨⟨s2, done2, -⟩, defined2⟩ | ⟨chosen, undefined, traps⟩
      · rw [done2]
        exact ⟨fun _ => ⟨defined0, defined1, defined2⟩, fun _ => ⟨s2, rfl⟩⟩
      · rw [traps]
        exact ⟨fun ⟨_, never⟩ => (by cases never), fun all => absurd (all.2.2 chosen) undefined⟩
    · simp only [traps]
      exact ⟨fun ⟨_, never⟩ => (by cases never), fun all => absurd (all.2.1 chosen) undefined⟩
  · simp only [bind, Except.bind, traps]
    exact ⟨fun ⟨_, never⟩ => (by cases never), fun all => absurd (all.1 chosen) undefined⟩

theorem update_mode_iff (s : Vatpit) (val : BitVec 8) : (∃ r, vatpitUpdateMode s val = .ok r) ↔
      (val &&& 0xc0 = timerSelReadback → ∀ n, ReadsBack val n → ReadbackDefined val (s.channel n)) := by
  unfold vatpitUpdateMode
  by_cases readback : val &&& 0xc0 = timerSelReadback
  · simp only [readback, ↓reduceIte, true_imp_iff]
    rw [← readback_iff]
    cases pitReadback s val with
    | ok s' => exact ⟨fun _ => ⟨s', rfl⟩, fun _ => ⟨_, rfl⟩⟩
    | error trap => exact ⟨fun ⟨_, never⟩ => (by cases never), fun ⟨_, never⟩ => (by cases never)⟩
  · obtain ⟨lval, s', counted, -⟩ := update_counter_ok s (selected val) true
    simp only [readback, ↓reduceIte, false_imp_iff, iff_true, counted]
    split
    · exact ⟨_, rfl⟩
    · split
      · exact ⟨_, rfl⟩
      · split
        · exact ⟨_, rfl⟩
        · exact ⟨_, rfl⟩

theorem counter_read_ok (s : Vatpit) (n : Fin 3) : ∃ r, counterRead s n = .ok r := by
  obtain ⟨lval, s', counted, -⟩ := update_counter_ok s n false
  unfold counterRead
  simp only [counted]
  split
  · exact ⟨_, rfl⟩
  · split
    · exact ⟨_, rfl⟩
    · exact ⟨_, rfl⟩

theorem get_out_iff (s : Vatpit) (n : Fin 3) :
    (∃ r, vatpitGetOut s n = .ok r) ↔ OutputDefined (s.channel n) := by
  constructor
  · rintro ⟨r, done⟩
    apply Classical.byContradiction
    intro undefined
    rw [get_out_traps undefined] at done
    cases done
  · intro defined
    obtain ⟨out, s', done, -⟩ := get_out_ok defined
    exact ⟨_, done⟩

/-- An access that asks for outputs asks for ones that are defined: the speaker port for that
    of channel 2, a status read-back for those it selects. -/
def AsksDefined (s : Vatpit) : Access → Prop
  | .timer isIn port bytes eax =>
      bytes = 1 → isIn = false → port = .mode → eax.setWidth 8 &&& 0xc0 = timerSelReadback →
        ∀ n, ReadsBack (eax.setWidth 8) n → ReadbackDefined (eax.setWidth 8) (s.channel n)
  | .speaker isIn _ => isIn = true → OutputDefined (s.channel channel2)
  | .expire => True
  | .callout => True

theorem bind_ok_iff {α β : Type} {x : Except Trap α} {f : α → β} :
    (∃ b, (x >>= fun a => .ok (f a)) = Except.ok b) ↔ ∃ a, x = .ok a := by
  cases x with
  | ok a => exact ⟨fun _ => ⟨a, rfl⟩, fun _ => ⟨f a, rfl⟩⟩
  | error trap => exact ⟨fun ⟨_, never⟩ => (by cases never), fun ⟨_, never⟩ => (by cases never)⟩

theorem handler_iff (s : Vatpit) (isIn : Bool) (port : Port) (bytes : Nat) (eax : BitVec 32) :
    (∃ r, vatpitHandler s isIn port bytes eax = .ok r) ↔
      AsksDefined s (.timer isIn port bytes eax) := by
  unfold vatpitHandler AsksDefined
  by_cases single : bytes = 1
  · simp only [single, ne_eq, not_true_eq_false, ↓reduceIte, true_imp_iff]
    cases port with
    | mode =>
      cases isIn with
      | true => simp
      | false =>
        simp only [Bool.false_eq_true, ↓reduceIte, true_imp_iff]
        rw [← update_mode_iff]
        exact bind_ok_iff
    | cntr n =>
      obtain ⟨r, read⟩ := counter_read_ok s n
      cases isIn with
      | true =>
        simp only [↓reduceIte, read]
        exact ⟨fun _ never => absurd never (by decide), fun _ => ⟨_, rfl⟩⟩
      | false => exact ⟨nofun, fun _ => ⟨_, rfl⟩⟩
  · simp only [single, ne_eq, not_false_eq_true, ↓reduceIte, false_imp_iff, iff_true]
    exact ⟨_, rfl⟩

theorem step_iff (s : Vatpit) (access : Access) :
    (∃ s', step s access = .ok s') ↔ AsksDefined s access := by
  cases access with
  | timer isIn port bytes eax =>
    rw [← handler_iff]
    exact bind_ok_iff
  | speaker isIn eax =>
    refine bind_ok_iff.trans ?_
    unfold vatpitNmiscHandler AsksDefined
    cases isIn with
    | true =>
      rw [← get_out_iff]
      simp only [↓reduceIte, true_imp_iff]
      exact bind_ok_iff
    | false => exact ⟨nofun, fun _ => ⟨_, rfl⟩⟩
  | expire => exact ⟨fun _ => trivial, fun _ => ⟨_, rfl⟩⟩
  | callout => exact ⟨fun _ => trivial, fun _ => ⟨_, rfl⟩⟩

theorem never_divides_iff (clock : Nat → Bintime) (accesses : List Access) :
    (∃ s, attempts step (vatpitInit clock) accesses = .ok s) ↔
      AlongAttempts step AsksDefined (vatpitInit clock) accesses :=
  attempts_ok_iff step_iff accesses (vatpitInit clock)

theorem square_wave_divides :
    attempts step (vatpitInit fun _ => ⟨0, 0⟩) [.timer false .mode 1 0xb6, .speaker true 0] =
      .error .divide := by
  rfl

end

end Pit
