import Mathlib.Algebra.Order.BigOperators.Group.Finset
import Mathlib.Algebra.BigOperators.Ring.Finset
import Mathlib.Data.Fintype.BigOperators
import Bhyve.Pci.Intx

namespace Pci
open ByteMemory StepRuns
variable {D : Type} [DecidableEq D] [Fintype D] {route : D → Route}

def Call.atIoapic (irq : Nat) : Call → Int
  | .isa on _ _ (some i) | .ioapic on i => if i = irq then (if on then 1 else -1) else 0
  | .isa _ _ _ none => 0

def Call.atIsa (p : Fin 8) (irq : Nat) : Call → Int
  | .isa on q i _ => if q = p ∧ i = irq then (if on then 1 else -1) else 0
  | .ioapic _ _ => 0

def level (change : Call → Int) (log : List Call) : Int := (log.map change).sum

/-- A device whose lock is free and that no write has left behind is asserted exactly when it is to
    be. With all devices on a pin outside of their locks, the pin is asserted as often as there
    are such devices. A router pin holds its irq at all times exactly when it is active. -/
structure Balanced (route : D → Route) (s : Lines D) : Prop where
  asserted : ∀ d, (s.line d).phase = .free → (s.line d).updates = 0 →
    ((s.line d).lintr = .asserted ↔
      (s.line d).wanted = true ∧ pciLintrPermitted (s.line d).dev = true)
  lines : ∀ irq, (∀ d, (route d).ioapicIrq = irq → (s.line d).phase = .free) →
    level (Call.atIoapic irq) s.log =
      (Finset.univ.filter fun d => (route d).ioapicIrq = irq ∧ (s.line d).lintr = .asserted).card
  isa : ∀ p irq, level (Call.atIsa p irq) s.log =
    if (s.pirqs p).activeCount ≠ 0 ∧ pirqValidIrq (s.pirqs p).reg = true ∧
      irqOf (s.pirqs p).reg = irq then 1 else 0

section

def Line.atIoapic (l : Line) : Int :=
  match l.phase with
  | .free => if l.lintr = .asserted then 1 else 0
  | .asserting | .assertingLine => 0
  | .deasserting _ | .deassertingLine _ => 1

def Line.atPirq (l : Line) : Int :=
  match l.phase with
  | .free => if l.lintr = .asserted then 1 else 0
  | .asserting | .deassertingLine _ => 0
  | .assertingLine | .deasserting _ => 1

def Line.Sound (l : Line) : Prop :=
  match l.phase with
  | .free => (l.lintr = .idle ↔ l.wanted = false) ∧ (l.updates = 0 → l.lintr ≠ .idle →
      (l.lintr = .asserted ↔ pciLintrPermitted l.dev = true))
  | .asserting | .assertingLine => l.lintr = .asserted ∧ l.wanted = true ∧
      (l.updates = 0 → pciLintrPermitted l.dev = true)
  | .deasserting suspends | .deassertingLine suspends =>
      if suspends then
        l.lintr = .asserted ∧ l.wanted = true ∧ (l.updates = 0 → pciLintrPermitted l.dev = false)
      else l.lintr = .idle ∧ l.wanted = false

variable {l : Line}

/-- A step inside the lock of a device, which the routers do not see. -/
structure Inside (l l' : Line) : Prop where
  sound : l'.Sound
  ioapic : l'.atIoapic = l.atIoapic
  pirq : l'.atPirq = l.atPirq

theorem assert_inside (sound : l.Sound) (free : l.phase = .free) : Inside l (pciLintrAssert l) := by
  obtain ⟨dev, lintr, phase, updates, wanted⟩ := l
  unfold pciLintrAssert
  by_cases permitted : pciLintrPermitted dev = true
  · cases lintr <;> constructor <;> simp_all [Line.Sound, Line.atIoapic, Line.atPirq]
  · cases lintr <;> constructor <;> simp_all [Line.Sound, Line.atIoapic, Line.atPirq]

theorem deassert_inside (sound : l.Sound) (free : l.phase = .free) :
    Inside l (pciLintrDeassert l) := by
  obtain ⟨dev, lintr, phase, updates, wanted⟩ := l
  unfold pciLintrDeassert
  cases lintr <;> constructor <;> simp_all [Line.Sound, Line.atIoapic, Line.atPirq]

theorem update_inside (sound : l.Sound) (free : l.phase = .free) : Inside l (pciLintrUpdate l) := by
  obtain ⟨dev, lintr, phase, updates, wanted⟩ := l
  unfold pciLintrUpdate
  by_cases permitted : pciLintrPermitted dev = true
  · cases lintr <;> constructor <;> simp_all [Line.Sound, Line.atIoapic, Line.atPirq]
  · cases lintr <;> constructor <;> simp_all [Line.Sound, Line.atIoapic, Line.atPirq]

theorem permitted_congr {d d' : Devinst} (low : d'.cfgdata pcirCommand = d.cfgdata pcirCommand)
    (high : d'.cfgdata (pcirCommand + 1) = d.cfgdata (pcirCommand + 1)) (msi : d'.msi = d.msi)
    (msix : d'.msix = d.msix) : pciLintrPermitted d' = pciLintrPermitted d := by
  unfold pciLintrPermitted Devinst.command
  rw [read16_congr low high, msi, msix]

theorem write_permitted {d d' : Devinst} {coff bytes : Nat} {val : BitVec 32}
    {actions : List Action} (written : pciCfgwrite d coff bytes val = some (d', actions))
    (quiet : Action.lintrUpdate ∉ actions) : pciLintrPermitted d' = pciLintrPermitted d := by
  unfold pciCfgwrite at written
  split at written
  · cases written
    rfl
  rename_i taken
  have width : bytes = 1 ∨ bytes = 2 ∨ bytes = 4 := by omega
  split at written
  · split at written
    · cases written
      rfl
    · rename_i place _
      obtain ⟨bar, value, calls, shape⟩ := bar_write_shape d ((coff - pcirBar 0) / 4) val
      rw [shape] at written
      cases written
      have below : pcirCommand + 1 < pcirBar ((coff - pcirBar 0) / 4) := by
        unfold pcirCommand pcirBar
        omega
      exact permitted_congr (write32_other _ _ (by omega)) (write32_other _ _ (.inl below)) rfl rfl
  split at written
  · rename_i cap
    have shape := capwrite_shape width cap written
    rcases shape.calls with none | one
    · obtain ⟨msi, msix⟩ := shape.quiet none
      exact permitted_congr (shape.header _ (by decide)) (shape.header _ (by decide)) msi msix
    · exact absurd (by simp [one]) quiet
  split at written
  · cases written
    exact absurd (by simp [pciEmulCmdChanged]) quiet
  · rename_i apart
    cases written
    unfold pcirCommand pcirRevid at apart
    refine permitted_congr (cfgwrite_other _ _ width ?_) (cfgwrite_other _ _ width ?_) rfl rfl
    all_goals
      unfold pcirCommand
      rcases width with rfl | rfl | rfl <;> omega

theorem cfg_inside (sound : l.Sound) (coff bytes : Nat) (val : BitVec 32) :
    Inside l (cfgPart coff bytes val l) := by
  unfold cfgPart
  cases written : pciCfgwrite l.dev coff bytes val with
  | none => exact ⟨sound, rfl, rfl⟩
  | some result =>
    obtain ⟨dev, actions⟩ := result
    refine ⟨?_, rfl, rfl⟩
    by_cases update : Action.lintrUpdate ∈ actions
    · -- the line is judged again once pci_lintr_update has been called
      obtain ⟨old, lintr, phase, updates, wanted⟩ := l
      rcases phase with _ | _ | _ | (_ | _) | (_ | _) <;> simp_all [Line.Sound]
    · have same := write_permitted written update
      simp only [Line.Sound, if_neg update, Nat.add_zero, same]
      exact sound

theorem shares_bounds (l : Line) : 0 ≤ l.atPirq ∧
    (∀ suspends, l.phase = .deasserting suspends → l.atPirq = 1) := by
  unfold Line.atPirq
  constructor
  · split
    · split <;> simp
    all_goals simp
  · intro suspends inside
    simp [inside]

end

section
variable {s : Lines D} {d : D} {l : Line}

def sign (on : Bool) : Int := if on then 1 else -1

def share (on : D → Prop) [DecidablePred on] (count : Line → Int) (line : D → Line) : Int :=
  ∑ d, if on d then count (line d) else 0

theorem share_update (on : D → Prop) [DecidablePred on] (count : Line → Int) (line : D → Line)
    (d : D) (l : Line) : share on count (Function.update line d l) =
      share on count line + if on d then count l - count (line d) else 0 := by
  unfold share
  rw [← Finset.add_sum_erase _ _ (Finset.mem_univ d),
    ← Finset.add_sum_erase _ (fun x => if on x then count (line x) else 0) (Finset.mem_univ d)]
  have others : ∑ x ∈ Finset.univ.erase d, (if on x then count (Function.update line d l x) else 0) =
      ∑ x ∈ Finset.univ.erase d, if on x then count (line x) else 0 := by
    refine Finset.sum_congr rfl fun x other => ?_
    rw [Function.update_of_ne (Finset.mem_erase.mp other).1]
  rw [others, Function.update_self]
  by_cases there : on d
  · simp only [if_pos there]
    omega
  · simp only [if_neg there]
    omega

theorem level_append (change : Call → Int) (log calls : List Call) :
    level change (log ++ calls) = level change log + level change calls := by
  simp [level]

def Pirq.Holds (pirq : Pirq) (irq : Nat) : Prop :=
  pirq.activeCount ≠ 0 ∧ pirqValidIrq pirq.reg = true ∧ irqOf pirq.reg = irq

instance (pirq : Pirq) (irq : Nat) : Decidable (pirq.Holds irq) :=
  inferInstanceAs (Decidable (_ ∧ _ ∧ _))

structure Counted (route : D → Route) (s : Lines D) : Prop where
  sound : ∀ d, (s.line d).Sound
  ioapic : ∀ irq, level (Call.atIoapic irq) s.log =
    share (fun d => (route d).ioapicIrq = irq) Line.atIoapic s.line
  pirq : ∀ p, (s.pirqs p).activeCount =
    share (fun d => (route d).pirqPin = some p) Line.atPirq s.line
  isa : ∀ p irq, level (Call.atIsa p irq) s.log = if (s.pirqs p).Holds irq then 1 else 0

theorem counted_move (counted : Counted route s) (pirqs : Fin 8 → Pirq) (calls : List Call)
    (sound : l.Sound) (ioapic : ∀ irq, level (Call.atIoapic irq) calls =
      if (route d).ioapicIrq = irq then l.atIoapic - (s.line d).atIoapic else 0)
    (pirq : ∀ p, (pirqs p).activeCount = (s.pirqs p).activeCount +
      if (route d).pirqPin = some p then l.atPirq - (s.line d).atPirq else 0)
    (isa : ∀ p irq, (if (s.pirqs p).Holds irq then 1 else 0) + level (Call.atIsa p irq) calls =
      if (pirqs p).Holds irq then 1 else 0) :
    Counted route (put d l { s with pirqs := pirqs, log := s.log ++ calls }) := by
  constructor
  · intro x
    show (Function.update s.line d l x).Sound
    by_cases same : x = d
    · rw [same, Function.update_self]
      exact sound
    · rw [Function.update_of_ne same]
      exact counted.sound x
  · intro irq
    show level _ (s.log ++ calls) = share _ _ (Function.update s.line d l)
    rw [level_append, share_update, counted.ioapic, ioapic]
  · intro p
    show (pirqs p).activeCount = share _ _ (Function.update s.line d l)
    rw [share_update, pirq, counted.pirq]
  · intro p irq
    show level _ (s.log ++ calls) = if (pirqs p).Holds irq then 1 else 0
    rw [level_append, counted.isa, isa]

theorem counted_put (counted : Counted route s) (inside : Inside (s.line d) l) :
    Counted route (put d l s) := by
  have moved := counted_move (d := d) counted s.pirqs [] inside.sound
    (by simp [level, inside.ioapic]) (by simp [inside.pirq]) (by simp [level])
  rw [List.append_nil] at moved
  exact moved

theorem ioapic_call (on : Bool) (irq i : Nat) :
    level (Call.atIoapic irq) [.ioapic on i] = if i = irq then sign on else 0 := by
  simp [level, Call.atIoapic, sign]

theorem isa_call (on : Bool) (p : Fin 8) (n irq i : Nat) :
    level (Call.atIoapic irq) [.isa on p n (some i)] = if i = irq then sign on else 0 := by
  simp [level, Call.atIoapic, sign]

omit [DecidableEq D] in
theorem active_nonneg (counted : Counted route s) (p : Fin 8) : 0 ≤ (s.pirqs p).activeCount := by
  rw [counted.pirq]
  refine Finset.sum_nonneg fun x _ => ?_
  split
  · exact (shares_bounds _).1
  · exact Int.le_refl 0

omit [DecidableEq D] in
theorem active_of_share (counted : Counted route s) {p : Fin 8}
    (pin : (route d).pirqPin = some p) (one : (s.line d).atPirq = 1) :
    1 ≤ (s.pirqs p).activeCount := by
  rw [counted.pirq, ← one]
  have each : ∀ x ∈ Finset.univ,
      0 ≤ if (route x).pirqPin = some p then (s.line x).atPirq else 0 := by
    intro x _
    split
    · exact (shares_bounds _).1
    · exact Int.le_refl 0
  have within := Finset.single_le_sum each (Finset.mem_univ d)
  rw [if_pos pin] at within
  exact within

/-- A line on its way through the router: what it is counted behind the lock of the router, and once
    the lock of the device is released. -/
structure Passing (on suspends : Bool) (rest : Phase) (l : Line) : Prop where
  left : (leave suspends l).Sound
  leftIoapic : (leave suspends l).atIoapic = l.atIoapic + sign on
  leftPirq : (leave suspends l).atPirq = l.atPirq + sign on
  behind : Line.Sound { l with phase := rest }
  behindIoapic : Line.atIoapic { l with phase := rest } = l.atIoapic
  behindPirq : Line.atPirq { l with phase := rest } = l.atPirq + sign on
  counted : on = false → l.atPirq = 1

theorem asserting_passes (sound : l.Sound) (inside : l.phase = .asserting) :
    Passing true false .assertingLine l := by
  obtain ⟨dev, lintr, phase, updates, wanted⟩ := l
  subst inside
  constructor <;> simp_all [leave, Line.Sound, Line.atIoapic, Line.atPirq, sign]

variable {suspends on : Bool}

theorem deasserting_passes (sound : l.Sound) (inside : l.phase = .deasserting suspends) :
    Passing false suspends (.deassertingLine suspends) l := by
  obtain ⟨dev, lintr, phase, updates, wanted⟩ := l
  subst inside
  cases suspends with
  | false =>
    obtain ⟨rfl, rfl⟩ := sound
    constructor <;> simp [leave, Line.Sound, Line.atIoapic, Line.atPirq, sign]
  | true =>
    constructor <;> simp_all [leave, Line.Sound, Line.atIoapic, Line.atPirq, sign]

theorem holds_of_count {pirq : Pirq} {count : Int} (irq : Nat)
    (step : count = pirq.activeCount + sign on)
    (least : if on then 0 ≤ pirq.activeCount else 1 ≤ pirq.activeCount) :
    (if pirq.Holds irq then 1 else 0) +
      (if (count = (if on then 1 else 0) ∧ pirqValidIrq pirq.reg = true) ∧ irqOf pirq.reg = irq
        then sign on else 0) = if Pirq.Holds { pirq with activeCount := count } irq then 1 else 0 := by
  by_cases mine : pirqValidIrq pirq.reg = true ∧ irqOf pirq.reg = irq
  · simp only [Pirq.Holds, mine.1, mine.2, and_true]
    cases on <;> simp [sign] at step least ⊢ <;> split <;> split <;> omega
  · have before : ¬pirq.Holds irq := fun holds => mine holds.2
    have after : ¬Pirq.Holds { pirq with activeCount := count } irq := fun holds => mine holds.2
    rw [if_neg before, if_neg after, if_neg fun all => mine ⟨all.1.2, all.2⟩]
    rfl

theorem irq_counted (counted : Counted route s) {rest : Phase}
    (passing : Passing on suspends rest (s.line d)) :
    Counted route (irqPart route on suspends rest d s) := by
  unfold irqPart
  cases pin : (route d).pirqPin with
  | none =>
    refine counted_move counted s.pirqs _ passing.left ?_ ?_ ?_
    · intro irq
      rw [ioapic_call, passing.leftIoapic, add_sub_cancel_left]
    · simp [pin]
    · simp [level, Call.atIsa]
  | some p =>
    simp only
    have least : if on then 0 ≤ (s.pirqs p).activeCount else 1 ≤ (s.pirqs p).activeCount := by
      cases on with
      | true => exact active_nonneg counted p
      | false => exact active_of_share counted pin (passing.counted rfl)
    generalize step : (if on then (s.pirqs p).activeCount + 1
      else (s.pirqs p).activeCount - 1) = count
    have step : count = (s.pirqs p).activeCount + sign on := by
      rw [← step]
      cases on <;> simp [sign, Int.sub_eq_add_neg]
    have others : ∀ q irq, q ≠ p → (if (s.pirqs q).Holds irq then 1 else 0) + 0 =
        if (Function.update s.pirqs p { s.pirqs p with activeCount := count } q).Holds irq
          then (1 : Int) else 0 := by
      intro q irq other
      rw [Function.update_of_ne other, Int.add_zero]
    have counts : ∀ q, (Function.update s.pirqs p
        { s.pirqs p with activeCount := count } q).activeCount = (s.pirqs q).activeCount +
          if some p = some q then sign on else 0 := by
      intro q
      by_cases same : q = p
      · rw [same, Function.update_self, if_pos rfl]
        exact step
      · have other : some p ≠ some q := fun equal => same (Option.some.inj equal).symm
        rw [Function.update_of_ne same, if_neg other, Int.add_zero]
    by_cases first : count = (if on then 1 else 0) ∧ pirqValidIrq (s.pirqs p).reg = true
    · rw [if_pos first]
      refine counted_move counted _ [_] passing.left ?_ ?_ ?_
      · intro irq
        rw [isa_call, passing.leftIoapic, add_sub_cancel_left]
      · intro q
        rw [passing.leftPirq, add_sub_cancel_left, pin]
        exact counts q
      · intro q irq
        by_cases same : q = p
        · rw [same, Function.update_self, ← holds_of_count irq step least]
          simp [level, Call.atIsa, first, sign]
        · rw [← others q irq same]
          simp [level, Call.atIsa, Ne.symm same]
    · rw [if_neg first]
      have moved := counted_move (d := d) counted (Function.update s.pirqs p
        { s.pirqs p with activeCount := count }) [] passing.behind ?_ ?_ ?_
      · rw [List.append_nil] at moved
        exact moved
      · simp [level, passing.behindIoapic]
      · intro q
        rw [passing.behindPirq, add_sub_cancel_left, pin]
        exact counts q
      · intro q irq
        by_cases same : q = p
        · rw [same, Function.update_self, ← holds_of_count irq step least]
          simp [level, first]
        · exact others q irq same

structure Leaving (on suspends : Bool) (l : Line) : Prop where
  left : (leave suspends l).Sound
  ioapic : (leave suspends l).atIoapic = l.atIoapic + sign on
  pirq : (leave suspends l).atPirq = l.atPirq

theorem asserting_leaves (sound : l.Sound) (inside : l.phase = .assertingLine) :
    Leaving true false l := by
  obtain ⟨dev, lintr, phase, updates, wanted⟩ := l
  subst inside
  constructor <;> simp_all [leave, Line.Sound, Line.atIoapic, Line.atPirq, sign]

theorem deasserting_leaves (sound : l.Sound) (inside : l.phase = .deassertingLine suspends) :
    Leaving false suspends l := by
  obtain ⟨dev, lintr, phase, updates, wanted⟩ := l
  subst inside
  cases suspends with
  | false =>
    obtain ⟨rfl, rfl⟩ := sound
    constructor <;> simp [leave, Line.Sound, Line.atIoapic, Line.atPirq, sign]
  | true =>
    constructor <;> simp_all [leave, Line.Sound, Line.atIoapic, Line.atPirq, sign]

theorem line_counted (counted : Counted route s) (leaving : Leaving on suspends (s.line d)) :
    Counted route (linePart route on suspends d s) := by
  refine counted_move counted s.pirqs [_] leaving.left ?_ ?_ ?_
  · intro irq
    rw [ioapic_call, leaving.ioapic, add_sub_cancel_left]
  · simp [leaving.pirq]
  · simp [level, Call.atIsa]

omit [DecidableEq D] in
theorem pirq_counted (counted : Counted route s) (p : Fin 8) (val : BitVec 8) :
    Counted route (pirqWrite p val s) := by
  unfold pirqWrite
  by_cases same : (s.pirqs p).reg = val &&& (pirqDis ||| pirqIrq)
  · simp only [same, ne_eq, not_true, if_false]
    exact counted
  simp only [if_pos same]
  generalize val &&& (pirqDis ||| pirqIrq) = reg at same
  constructor
  · exact counted.sound
  · intro irq
    rw [level_append, level_append, counted.ioapic]
    have quiet : ∀ on i (asked : Bool),
        level (Call.atIoapic irq) (if asked then [.isa on p i none] else []) = 0 := by
      intro on i asked
      cases asked <;> simp [level, Call.atIoapic]
    rw [quiet, quiet, add_zero, add_zero]
  · intro q
    rw [← counted.pirq]
    simp only
    by_cases here : q = p
    · rw [here, Function.update_self]
    · rw [Function.update_of_ne here]
  · intro q irq
    rw [level_append, level_append, counted.isa]
    simp only
    by_cases here : q = p
    · subst here
      unfold Pirq.Holds
      by_cases active : (s.pirqs q).activeCount = 0
      · simp [active, level]
      · have released : ((if irqOf (s.pirqs q).reg = irq then 1 else 0) +
            if irqOf (s.pirqs q).reg = irq then -1 else 0 : Int) = 0 := by split <;> rfl
        by_cases old : pirqValidIrq (s.pirqs q).reg = true
        · by_cases new : pirqValidIrq reg = true
          · simp [active, old, new, level, Call.atIsa, released]
          · simp [active, old, new, level, Call.atIsa, released]
        · by_cases new : pirqValidIrq reg = true
          · simp [active, old, new, level, Call.atIsa]
          · simp [active, old, new, level]
    · simp only [Function.update_of_ne here]
      have quiet : ∀ on i (asked : Bool),
          level (Call.atIsa q irq) (if asked then [.isa on p i none] else []) = 0 := by
        intro on i asked
        cases asked <;> simp [level, Call.atIsa, Ne.symm here]
      rw [quiet, quiet, add_zero, add_zero]

end

section
variable {s : Lines D}

theorem step_counted (s : Lines D) (e : LineStep D) (counted : Counted route s) :
    Counted route (lineStep route s e) := by
  cases e with
  | assert d =>
    unfold lineStep
    by_cases free : (s.line d).phase = .free
    · simpa only [if_pos free] using counted_put counted (assert_inside (counted.sound d) free)
    · simpa only [if_neg free] using counted
  | deassert d =>
    unfold lineStep
    by_cases free : (s.line d).phase = .free
    · simpa only [if_pos free] using counted_put counted (deassert_inside (counted.sound d) free)
    · simpa only [if_neg free] using counted
  | update d =>
    unfold lineStep
    by_cases free : (s.line d).phase = .free ∧ (s.line d).updates ≠ 0
    · simpa only [if_pos free] using counted_put counted (update_inside (counted.sound d) free.1)
    · simpa only [if_neg free] using counted
  | irq d =>
    simp only [lineStep]
    cases inside : (s.line d).phase with
    | asserting => exact irq_counted counted (asserting_passes (counted.sound d) inside)
    | deasserting suspends =>
      exact irq_counted counted (deasserting_passes (counted.sound d) inside)
    | free | assertingLine | deassertingLine suspends => exact counted
  | line d =>
    simp only [lineStep]
    cases inside : (s.line d).phase with
    | assertingLine => exact line_counted counted (asserting_leaves (counted.sound d) inside)
    | deassertingLine suspends =>
      exact line_counted counted (deasserting_leaves (counted.sound d) inside)
    | free | asserting | deasserting suspends => exact counted
  | cfg d coff bytes val =>
    exact counted_put counted (cfg_inside (counted.sound d) coff bytes val)
  | pirq p val => exact pirq_counted counted p val

omit [DecidableEq D] in
theorem start_counted (dev : D → Devinst) (reg : Fin 8 → BitVec 8) :
    Counted route (.start dev reg) := by
  constructor
  · intro d
    simp [Lines.start, Line.Sound]
  · simp [Lines.start, level, share, Line.atIoapic]
  · simp [Lines.start, share, Line.atPirq]
  · simp [Lines.start, level, Pirq.Holds]

omit [DecidableEq D] in
theorem balanced_of_counted (counted : Counted route s) : Balanced route s where
  asserted := by
    intro d free settled
    have sound := counted.sound d
    unfold Line.Sound at sound
    rw [free] at sound
    obtain ⟨idle, known⟩ := sound
    by_cases resting : (s.line d).lintr = .idle
    · simp [resting, idle.mp resting]
    · have wanted : (s.line d).wanted = true := by simpa using mt idle.mpr resting
      simp [known settled resting, wanted]
  lines := by
    intro irq outside
    rw [counted.ioapic, share, ← Finset.sum_boole]
    refine Finset.sum_congr rfl fun d _ => ?_
    by_cases here : (route d).ioapicIrq = irq
    · simp [here, Line.atIoapic, outside d here]
    · simp [here]
  isa := counted.isa

end
end Pci
