import Bhyve.Lib.Fallible
import Bhyve.Hpet.Vhpet
import Mathlib.Data.Fintype.Card
import Mathlib.Data.Int.Basic

namespace Hpet
open Fallible StepRuns
open BitVec hiding not_not

def outstanding (calls : List Call) (pin : Nat) : Int :=
  (calls.count (.assert pin) : Int) - calls.count (.deassert pin)

def holders (v : Vhpet) (pin : Nat) : Finset TimerNum :=
  Finset.univ.filter fun n => v.isrSet n = true ∧ (v.timer n).ioapicPin = pin

def Timer.routedWell (t : Timer) : Bool := t.allowedIrqs.getLsbD t.ioapicPin

structure Asserting (t : Timer) : Prop where
  enabled : t.interruptEnabled = true
  wired : t.msiEnabled = false
  level : t.edgeTrig = .ok false
  pin : t.ioapicPin ≠ 0
  allowed : t.routedWell = true

structure Sound (v : Vhpet) : Prop where
  status : ∀ i, v.isr.getLsbD i = true → ∃ n : TimerNum, n.val = i ∧ Asserting (v.timer n)
  balance : ∀ pin, outstanding v.calls pin = (holders v pin).card
  callouts : ∀ n, (v.timer n).callout.active = true → v.counterEnabled = true
  rates : ∀ n, (v.timer n).periodic = false → (v.timer n).comprate = 0

structure Balanced (v : Vhpet) : Prop where
  status : ∀ i, v.isr.getLsbD i = true → ∃ n : TimerNum, n.val = i ∧ Asserting (v.timer n)
  balance : ∀ pin, outstanding v.calls pin = (holders v pin).card
  rates : ∀ n, (v.timer n).periodic = false → (v.timer n).comprate = 0
  routes : ∀ n, (v.timer n).ioapicPin ≠ 0 → (v.timer n).routedWell = true

structure Timed (now : Int) (v : Vhpet) : Prop where
  callouts : ∀ n, (v.timer n).callout.active = true → v.counterEnabled = true
  base : v.counterEnabled = true → v.countbaseSbt ≤ now

structure SameSetup (t u : Timer) : Prop where
  enabled : u.interruptEnabled = t.interruptEnabled
  wired : u.msiEnabled = t.msiEnabled
  level : u.edgeTrig = t.edgeTrig
  pin : u.ioapicPin = t.ioapicPin
  allowed : u.routedWell = t.routedWell
  kind : u.periodic = t.periodic

theorem setup_same {t u : Timer}
    (same : u.capConfig &&& ~~~hpetTcnfValSet = t.capConfig &&& ~~~hpetTcnfValSet) :
    SameSetup t u := by
  have field : ∀ m, ~~~hpetTcnfValSet &&& m = m → u.capConfig &&& m = t.capConfig &&& m := by
    intro m kept
    rw [← kept, ← BitVec.and_assoc, ← BitVec.and_assoc, same]
  have wired : u.msiEnabled = t.msiEnabled := by
    rw [Timer.msiEnabled, field _ (by decide), ← Timer.msiEnabled]
  have pin : u.ioapicPin = t.ioapicPin := by
    rw [Timer.ioapicPin, field _ (by decide), wired, ← Timer.ioapicPin]
  have high : ∀ x : BitVec 64,
      ((x &&& ~~~hpetTcnfValSet) >>> 32).setWidth 32 = (x >>> 32).setWidth 32 := by
    intro x
    have all : (~~~hpetTcnfValSet >>> 32).setWidth 32 = BitVec.allOnes 32 := by decide
    rw [ushiftRight_and_distrib, setWidth_and, all, and_allOnes]
  have allowed : u.allowedIrqs = t.allowedIrqs := by
    rw [Timer.allowedIrqs, ← high, same, high, ← Timer.allowedIrqs]
  constructor
  · rw [Timer.interruptEnabled, field _ (by decide), ← Timer.interruptEnabled]
  · exact wired
  · rw [Timer.edgeTrig, field _ (by decide), wired, ← Timer.edgeTrig]
  · exact pin
  · rw [Timer.routedWell, allowed, pin, ← Timer.routedWell]
  · rw [Timer.periodic, field _ (by decide), ← Timer.periodic]

theorem asserting_same {t u : Timer} (same : SameSetup t u) (asserting : Asserting t) :
    Asserting u where
  enabled := same.enabled.trans asserting.enabled
  wired := same.wired.trans asserting.wired
  level := same.level.trans asserting.level
  pin := by
    rw [same.pin]
    exact asserting.pin
  allowed := same.allowed.trans asserting.allowed

theorem wired_of_pin {t : Timer} (pin : t.ioapicPin ≠ 0) : t.msiEnabled = false := by
  apply (Bool.not_eq_true _).mp
  intro msi
  exact pin (if_pos msi)

theorem edge_of_wired {t : Timer} (wired : t.msiEnabled = false) :
    t.edgeTrig = .ok (decide (t.capConfig &&& hpetTcnfIntType = 0)) := by
  rw [Timer.edgeTrig, wired, if_neg Bool.false_ne_true]

theorem route_checked_well (t : Timer) (pin : (routeChecked t).ioapicPin ≠ 0) :
    (routeChecked t).routedWell = true := by
  unfold routeChecked at pin ⊢
  split
  · next refused =>
    rw [if_pos refused] at pin
    exfalso
    apply pin
    rw [Timer.ioapicPin, wired_of_pin pin, if_neg Bool.false_ne_true]
    have cleared : ~~~hpetTcnfIntRoute &&& hpetTcnfIntRoute = 0 := by decide
    rw [BitVec.and_assoc, cleared, ofNat_eq_ofNat, BitVec.and_zero]
    rfl
  · next accepted =>
    rw [if_neg accepted] at pin
    exact (Bool.not_eq_false _).mp fun never => accepted ⟨pin, never⟩

section
variable {v : Vhpet} {n : TimerNum} {pin : Nat}

theorem num_lt (n : TimerNum) : n.val < 64 := Nat.lt_of_lt_of_le n.isLt (by decide)

theorem raise_isr (i : Nat) :
    (v.raise n pin).isr.getLsbD i = (v.isr.getLsbD i || decide (n.val = i)) := by
  show (v.isr ||| BitVec.twoPow 64 n).getLsbD i = _
  rw [getLsbD_or, getLsbD_twoPow, decide_eq_true (num_lt n), Bool.true_and]

theorem lower_isr (i : Nat) :
    (v.lower n pin).isr.getLsbD i = (v.isr.getLsbD i && !decide (n.val = i)) := by
  show (v.isr &&& ~~~BitVec.twoPow 64 n).getLsbD i = _
  by_cases inside : i < 64
  · rw [getLsbD_and, getLsbD_not, getLsbD_twoPow, decide_eq_true (num_lt n),
      decide_eq_true inside, Bool.true_and, Bool.true_and]
  · rw [getLsbD_of_ge _ _ (Nat.not_lt.mp inside),
      getLsbD_of_ge _ _ (Nat.not_lt.mp inside), Bool.false_and]

theorem raise_is (m : TimerNum) : (v.raise n pin).isrSet m = (v.isrSet m || decide (n = m)) := by
  show (v.raise n pin).isr.getLsbD m = _
  rw [raise_isr, decide_eq_decide.mpr Fin.val_inj]
  rfl

theorem lower_is (m : TimerNum) : (v.lower n pin).isrSet m = (v.isrSet m && !decide (n = m)) := by
  show (v.lower n pin).isr.getLsbD m = _
  rw [lower_isr, decide_eq_decide.mpr Fin.val_inj]
  rfl

theorem mem_holders (m : TimerNum) (p : Nat) :
    m ∈ holders v p ↔ v.isrSet m = true ∧ (v.timer m).ioapicPin = p := by
  rw [holders, Finset.mem_filter]
  exact and_iff_right (Finset.mem_univ m)

theorem raise_holders (clear : v.isrSet n = false) (p : Nat) :
    ((holders (v.raise n pin) p).card : Int) =
      (holders v p).card + if (v.timer n).ioapicPin = p then 1 else 0 := by
  have absent : n ∉ holders v p := by
    rw [mem_holders, clear]
    exact fun never => Bool.false_ne_true never.1
  split
  · next here =>
    have joined : holders (v.raise n pin) p = insert n (holders v p) := by
      ext m
      rw [Finset.mem_insert, mem_holders, mem_holders, raise_is, Bool.or_eq_true, decide_eq_true_eq]
      constructor
      · rintro ⟨old | rfl, routed⟩
        · exact .inr ⟨old, routed⟩
        · exact .inl rfl
      · rintro (rfl | ⟨old, routed⟩)
        · exact ⟨.inr rfl, here⟩
        · exact ⟨.inl old, routed⟩
    rw [joined, Finset.card_insert_of_notMem absent]
    exact Int.natCast_succ _
  · next elsewhere =>
    have same : holders (v.raise n pin) p = holders v p := by
      ext m
      rw [mem_holders, mem_holders, raise_is, Bool.or_eq_true, decide_eq_true_eq]
      constructor
      · rintro ⟨old | rfl, routed⟩
        · exact ⟨old, routed⟩
        · exact absurd routed elsewhere
      · rintro ⟨old, routed⟩
        exact ⟨.inl old, routed⟩
    rw [same, Int.add_zero]

theorem lower_holders {w : Vhpet} (others : ∀ m, m ≠ n → w.timer m = v.timer m)
    (bits : w.isr = v.isr) (set_ : v.isrSet n = true) (p : Nat) :
    ((holders (w.lower n pin) p).card : Int) =
      (holders v p).card - if (v.timer n).ioapicPin = p then 1 else 0 := by
  have left : holders (w.lower n pin) p = (holders v p).erase n := by
    ext m
    rw [Finset.mem_erase, mem_holders, mem_holders, lower_is, Bool.and_eq_true, Bool.not_eq_true',
      decide_eq_false_iff_not]
    show (w.isr.getLsbD m = true ∧ n ≠ m) ∧ (w.timer m).ioapicPin = p ↔ _
    rw [bits]
    constructor
    · rintro ⟨⟨old, other⟩, routed⟩
      rw [others m (Ne.symm other)] at routed
      exact ⟨Ne.symm other, old, routed⟩
    · rintro ⟨other, old, routed⟩
      rw [← others m other] at routed
      exact ⟨⟨old, Ne.symm other⟩, routed⟩
  rw [left]
  split
  · next here =>
    have member : n ∈ holders v p := (mem_holders n p).mpr ⟨set_, here⟩
    have counted := Finset.card_erase_add_one member
    omega
  · next elsewhere =>
    have absent : n ∉ holders v p := by
      rw [mem_holders]
      exact fun never => elsewhere never.2
    rw [Finset.erase_eq_of_notMem absent, Int.sub_zero]

end

theorem outstanding_append (calls : List Call) (c : Call) (pin : Nat) :
    outstanding (calls ++ [c]) pin = outstanding calls pin + outstanding [c] pin := by
  unfold outstanding
  rw [List.count_append, List.count_append]
  omega

theorem outstanding_assert (pin p : Nat) :
    outstanding [.assert pin] p = if pin = p then 1 else 0 := by
  unfold outstanding
  by_cases same : pin = p
  · subst same
    simp
  · simp [same]

theorem outstanding_deassert (pin p : Nat) :
    outstanding [.deassert pin] p = - if pin = p then 1 else 0 := by
  unfold outstanding
  by_cases same : pin = p
  · subst same
    simp
  · simp [same]

section
variable {v w : Vhpet} {n : TimerNum} {t : Timer} {now : Int}

theorem store_same (v : Vhpet) (n : TimerNum) (t : Timer) : (v.store n t).timer n = t :=
  Function.update_self ..

theorem store_other {m : TimerNum} (other : m ≠ n) : (v.store n t).timer m = v.timer m :=
  Function.update_of_ne other ..

section
variable (balanced : Balanced v)
include balanced

theorem asserting_of_set (set_ : v.isrSet n = true) : Asserting (v.timer n) := by
  obtain ⟨m, here, asserting⟩ := balanced.status n set_
  obtain rfl := Fin.ext here
  exact asserting

theorem call_balanced {c : Call}
    (neither : ∀ pin, outstanding [c] pin = 0) : Balanced (v.call c) where
  status := balanced.status
  balance pin := by
    show outstanding (v.calls ++ [c]) pin = (holders v pin).card
    rw [outstanding_append, neither, Int.add_zero]
    exact balanced.balance pin
  rates := balanced.rates
  routes := balanced.routes

theorem raise_balanced (clear : v.isrSet n = false)
    (asserting : Asserting (v.timer n)) : Balanced (v.raise n (v.timer n).ioapicPin) where
  status i set_ := by
    rw [raise_isr, Bool.or_eq_true, decide_eq_true_eq] at set_
    obtain old | here := set_
    · exact balanced.status i old
    · exact ⟨n, here, asserting⟩
  balance pin := by
    show outstanding (v.calls ++ [_]) pin = _
    rw [raise_holders clear, outstanding_append, outstanding_assert, balanced.balance pin]
  rates := balanced.rates
  routes := balanced.routes

theorem lower_balanced (set_ : v.isrSet n = true)
    (rate : t.periodic = false → t.comprate = 0) (route : t.ioapicPin ≠ 0 → t.routedWell = true) :
    Balanced ((v.store n t).lower n (v.timer n).ioapicPin) where
  status i still := by
    rw [lower_isr, Bool.and_eq_true, Bool.not_eq_true', decide_eq_false_iff_not] at still
    obtain ⟨m, here, asserting⟩ := balanced.status i still.1
    have other : m ≠ n := by
      rintro rfl
      exact still.2 here
    refine ⟨m, here, ?_⟩
    show Asserting ((v.store n t).timer m)
    rw [store_other other]
    exact asserting
  balance pin := by
    show outstanding (v.calls ++ [_]) pin = _
    rw [lower_holders (fun m other => store_other other) rfl set_, outstanding_append,
      outstanding_deassert, balanced.balance pin]
    exact (Int.sub_eq_add_neg).symm
  rates m := by
    by_cases here : m = n
    · subst here
      show ((v.store m t).timer m).periodic = false → ((v.store m t).timer m).comprate = 0
      rw [store_same]
      exact rate
    · show ((v.store n t).timer m).periodic = false → ((v.store n t).timer m).comprate = 0
      rw [store_other here]
      exact balanced.rates m
  routes m := by
    by_cases here : m = n
    · subst here
      show ((v.store m t).timer m).ioapicPin ≠ 0 → ((v.store m t).timer m).routedWell = true
      rw [store_same]
      exact route
    · show ((v.store n t).timer m).ioapicPin ≠ 0 → ((v.store n t).timer m).routedWell = true
      rw [store_other here]
      exact balanced.routes m

theorem store_balanced (rate : t.periodic = false → t.comprate = 0)
    (route : t.ioapicPin ≠ 0 → t.routedWell = true)
    (held : v.isrSet n = true → Asserting t ∧ t.ioapicPin = (v.timer n).ioapicPin) :
    Balanced (v.store n t) where
  status i set_ := by
    obtain ⟨m, here, asserting⟩ := balanced.status i set_
    refine ⟨m, here, ?_⟩
    by_cases same : m = n
    · subst same
      rw [store_same]
      subst here
      exact (held set_).1
    · rw [store_other same]
      exact asserting
  balance pin := by
    have same : holders (v.store n t) pin = holders v pin := by
      ext m
      rw [mem_holders, mem_holders]
      show v.isrSet m = true ∧ ((v.store n t).timer m).ioapicPin = pin ↔ _
      by_cases here : m = n
      · subst here
        rw [store_same]
        refine and_congr_right fun set_ => ?_
        rw [(held set_).2]
      · rw [store_other here]
    rw [same]
    exact balanced.balance pin
  rates m := by
    by_cases here : m = n
    · subst here
      rw [store_same]
      exact rate
    · rw [store_other here]
      exact balanced.rates m
  routes m := by
    by_cases here : m = n
    · subst here
      rw [store_same]
      exact route
    · rw [store_other here]
      exact balanced.routes m

theorem setup_balanced (same : SameSetup (v.timer n) t)
    (rate : t.periodic = false → t.comprate = 0) : Balanced (v.store n t) := by
  refine store_balanced balanced rate (fun pin => ?_) fun set_ => ?_
  · rw [same.pin] at pin
    exact same.allowed.trans (balanced.routes n pin)
  · exact ⟨asserting_same same (asserting_of_set balanced set_), same.pin⟩

end

structure Frame (n : TimerNum) (v w : Vhpet) : Prop where
  config : w.config = v.config
  base : w.countbaseSbt = v.countbaseSbt
  others : ∀ m, m ≠ n → (w.timer m).callout = (v.timer m).callout

theorem frame_store (v : Vhpet) (n : TimerNum) (t : Timer) : Frame n v (v.store n t) :=
  ⟨rfl, rfl, fun _ other => congrArg Timer.callout (store_other other)⟩

theorem frame_trans {u : Vhpet} (first : Frame n v w) (second : Frame n w u) : Frame n v u :=
  ⟨second.config.trans first.config, second.base.trans first.base,
    fun m other => (second.others m other).trans (first.others m other)⟩

theorem enabled_same (config : w.config = v.config) : w.counterEnabled = v.counterEnabled := by
  rw [Vhpet.counterEnabled, config, ← Vhpet.counterEnabled]

theorem counter_ran (timed : Timed now v) {nowptr : Bool}
    (running : nowptr = true → v.counterEnabled = true) :
    ∃ counter, vhpetCounter now v nowptr = .ok counter := by
  unfold vhpetCounter
  split
  · next enabled =>
    have forward := Int.sub_nonneg.mpr (timed.base enabled)
    rw [if_neg (Int.not_lt.mpr forward)]
    exact ⟨_, rfl⟩
  · next disabled =>
    rw [if_neg fun taken => disabled (running taken)]
    exact ⟨_, rfl⟩

theorem interrupt_balanced (balanced : Balanced v) (n : TimerNum) :
    ∃ w, vhpetTimerInterrupt v n = .ok w ∧ Balanced w ∧ w.config = v.config ∧
      w.countbaseSbt = v.countbaseSbt ∧ w.timer = v.timer := by
  unfold vhpetTimerInterrupt
  dsimp only
  split
  · exact ⟨v, rfl, balanced, rfl, rfl, rfl⟩
  · next enabled =>
    split
    · exact ⟨v, rfl, balanced, rfl, rfl, rfl⟩
    · next clear =>
      split
      · exact ⟨_, rfl, call_balanced balanced fun _ => rfl, rfl, rfl, rfl⟩
      · split
        · exact ⟨v, rfl, balanced, rfl, rfl, rfl⟩
        · next pin =>
          have wired := wired_of_pin pin
          rw [bind_ok (edge_of_wired wired)]
          split
          · exact ⟨_, rfl, call_balanced balanced fun _ => rfl, rfl, rfl, rfl⟩
          · next level =>
            have asserting : Asserting (v.timer n) := by
              refine ⟨?_, wired, ?_, pin, balanced.routes n pin⟩
              · cases on : (v.timer n).interruptEnabled with
                | true => rfl
                | false =>
                  rw [on] at enabled
                  exact absurd rfl enabled
              · rw [edge_of_wired wired, (Bool.not_eq_true _).mp level]
            refine ⟨_, rfl, ?_, rfl, rfl, rfl⟩
            exact raise_balanced balanced ((Bool.not_eq_true _).mp clear) asserting

theorem compval_ahead_ran (t : Timer) (counter : BitVec 32) :
    ∃ u, compvalAhead t counter = .ok u ∧ u.capConfig = t.capConfig ∧ u.comprate = t.comprate := by
  unfold compvalAhead vhpetAdjustCompval
  by_cases periodic : t.comprate ≠ 0
  · rw [if_pos periodic, if_neg periodic]
    exact ⟨_, rfl, rfl, rfl⟩
  · rw [if_neg periodic]
    exact ⟨_, rfl, rfl, rfl⟩

theorem start_balanced (balanced : Balanced v) (n : TimerNum) (counter : BitVec 32) (now : Int) :
    ∃ w, vhpetStartTimer v n counter now = .ok w ∧ Balanced w ∧ Frame n v w := by
  obtain ⟨t, ahead, config, rate⟩ := compval_ahead_ran (v.timer n) counter
  unfold vhpetStartTimer
  rw [bind_ok ahead]
  have same : SameSetup (v.timer n) (calloutReset t counter now) :=
    setup_same (congrArg (· &&& ~~~hpetTcnfValSet) config)
  refine ⟨_, rfl, setup_balanced balanced same fun oneShot => ?_, frame_store ..⟩
  rw [same.kind] at oneShot
  exact rate.trans (balanced.rates n oneShot)

theorem stop_balanced (balanced : Balanced v) (n : TimerNum) (now : Int) :
    ∃ w, vhpetStopTimer v n now = .ok w ∧ Balanced w ∧ Frame n v w ∧
      (w.timer n).callout.active = false := by
  have stopped : Balanced (v.store n { v.timer n with callout := ⟨false, false⟩ }) :=
    setup_balanced balanced (setup_same rfl) (balanced.rates n)
  have frame := frame_store v n { v.timer n with callout := ⟨false, false⟩ }
  unfold vhpetStopTimer
  split
  · obtain ⟨w, ran, after, config, base, timers⟩ := interrupt_balanced stopped n
    refine ⟨w, ran, after, frame_trans frame ⟨config, base, fun m _ => by rw [timers]⟩, ?_⟩
    rw [timers, store_same]
  · refine ⟨_, rfl, stopped, frame, ?_⟩
    rw [store_same]

theorem clear_isr_balanced (balanced : Balanced v) (n : TimerNum) :
    ∃ w, vhpetTimerClearIsr v n = .ok w ∧ Balanced w ∧ w.config = v.config ∧
      w.countbaseSbt = v.countbaseSbt ∧ w.timer = v.timer := by
  unfold vhpetTimerClearIsr
  split
  · next set_ =>
    rw [if_neg (asserting_of_set balanced set_).pin]
    refine ⟨_, rfl, ?_, rfl, rfl, rfl⟩
    have lowered := lower_balanced balanced set_ (balanced.rates n) (balanced.routes n)
    rw [Vhpet.store, Function.update_eq_self] at lowered
    exact lowered
  · exact ⟨v, rfl, balanced, rfl, rfl, rfl⟩

theorem clear_isr_ran (t : Timer) (oldPin : Nat) :
    ∃ clear, clearIsr t oldPin = .ok clear ∧ (clear = false → t.interruptEnabled = true ∧
      t.msiEnabled = false ∧ t.edgeTrig = .ok false ∧ t.ioapicPin = oldPin) := by
  unfold clearIsr
  split
  · exact ⟨true, rfl, nofun⟩
  · next enabled =>
    split
    · exact ⟨true, rfl, nofun⟩
    · next msi =>
      have wired := (Bool.not_eq_true _).mp msi
      rw [edge_of_wired wired]
      refine ⟨_, rfl, fun kept => ?_⟩
      rw [Bool.or_eq_false_iff, decide_eq_false_iff_not, decide_eq_false_iff_not, not_not] at kept
      refine ⟨?_, wired, ?_, kept.2⟩
      · cases on : t.interruptEnabled with
        | true => rfl
        | false =>
          rw [on] at enabled
          exact absurd rfl enabled
      · rw [decide_eq_false kept.1]

theorem reconfigured_checks (t : Timer) (data mask : BitVec 64) :
    ((reconfigured t data mask).periodic = false → (reconfigured t data mask).comprate = 0) ∧
      ((reconfigured t data mask).ioapicPin ≠ 0 → (reconfigured t data mask).routedWell = true) := by
  unfold reconfigured
  generalize checked : routeChecked { t with capConfig := configWritten t data mask } = u
  have routed : u.ioapicPin ≠ 0 → u.routedWell = true := by
    rw [← checked]
    exact route_checked_well _
  unfold rateChecked
  split
  · exact ⟨fun _ => rfl, routed⟩
  · next periodic =>
    refine ⟨fun oneShot => ?_, routed⟩
    rw [oneShot] at periodic
    exact absurd rfl periodic

theorem not_level_ran (balanced : Balanced v) (n : TimerNum) :
    ∃ edge, notLevel (v.timer n) = .ok edge ∧ (edge && v.isrSet n) = false := by
  unfold notLevel
  split
  · next msi =>
    refine ⟨true, rfl, ?_⟩
    apply (Bool.not_eq_true _).mp
    intro set_
    exact absurd (msi.symm.trans (asserting_of_set balanced set_).wired) (by decide)
  · next wired =>
    rw [edge_of_wired ((Bool.not_eq_true _).mp wired)]
    refine ⟨_, rfl, ?_⟩
    cases set_ : v.isrSet n with
    | false => rw [Bool.and_false]
    | true =>
      have level := (asserting_of_set balanced set_).level
      rw [edge_of_wired ((Bool.not_eq_true _).mp wired)] at level
      rw [Except.ok.inj level, Bool.false_and]

theorem update_config_balanced (balanced : Balanced v) (n : TimerNum) (data mask : BitVec 64) :
    ∃ w, vhpetTimerUpdateConfig v n data mask = .ok w ∧ Balanced w ∧ w.config = v.config ∧
      w.countbaseSbt = v.countbaseSbt ∧
        ((w.timer n).callout = (v.timer n).callout ∧ ∀ m, m ≠ n → w.timer m = v.timer m) := by
  obtain ⟨edge, ran, calm⟩ := not_level_ran balanced n
  obtain ⟨rate, route⟩ := reconfigured_checks (v.timer n) data mask
  have callout : (reconfigured (v.timer n) data mask).callout = (v.timer n).callout := by
    unfold reconfigured rateChecked routeChecked
    split <;> split <;> rfl
  have timers : ((v.store n (reconfigured (v.timer n) data mask)).timer n).callout =
      (v.timer n).callout ∧ ∀ m, m ≠ n →
        (v.store n (reconfigured (v.timer n) data mask)).timer m = v.timer m := by
    rw [store_same]
    exact ⟨callout, fun m other => store_other other⟩
  unfold vhpetTimerUpdateConfig
  dsimp only
  rw [bind_ok ran, calm, if_neg Bool.false_ne_true]
  split
  · exact ⟨v, rfl, balanced, rfl, rfl, rfl, fun _ _ => rfl⟩
  · split
    · next set_ =>
      have held : v.isrSet n = true := set_
      have asserting := asserting_of_set balanced held
      rw [if_neg asserting.pin, store_same]
      obtain ⟨clear, cleared, kept⟩ :=
        clear_isr_ran (reconfigured (v.timer n) data mask) (v.timer n).ioapicPin
      rw [bind_ok cleared]
      refine ⟨_, rfl, ?_⟩
      cases clear with
      | true => exact ⟨lower_balanced balanced held rate route, rfl, rfl, timers⟩
      | false =>
        obtain ⟨enabled, wired, level, pin⟩ := kept rfl
        have nonzero : (reconfigured (v.timer n) data mask).ioapicPin ≠ 0 := by
          rw [pin]
          exact asserting.pin
        refine ⟨store_balanced balanced rate route fun _ => ?_, rfl, rfl, timers⟩
        exact ⟨⟨enabled, wired, level, nonzero, route nonzero⟩, pin⟩
    · next clear =>
      refine ⟨_, rfl, store_balanced balanced rate route fun set_ => ?_, rfl, rfl, timers⟩
      exact absurd set_ clear

theorem comparator_written_ran (balanced : Balanced v) (n : TimerNum) (data mask : BitVec 64) :
    ∃ t, comparatorWritten (v.timer n) data mask = .ok t ∧ t.capConfig = (v.timer n).capConfig ∧
      t.callout = (v.timer n).callout ∧ ((v.timer n).periodic = false → t.comprate = 0) := by
  unfold comparatorWritten
  split
  · next periodic =>
    exact ⟨_, rfl, rfl, rfl, fun never => absurd (periodic.symm.trans never) (by decide)⟩
  · next oneShot =>
    have rate := balanced.rates n ((Bool.not_eq_true _).mp oneShot)
    rw [if_neg (not_not_intro rate)]
    exact ⟨_, rfl, rfl, rfl, fun _ => rate⟩

end

section
variable {v w : Vhpet} {now : Int}

def Kept (now : Int) (v : Vhpet) : Prop := Balanced v ∧ Timed now v

theorem running_timed (running : w.counterEnabled = true) (base : w.countbaseSbt ≤ now) :
    Timed now w :=
  ⟨fun _ _ => running, fun _ => base⟩

theorem timed_frame (timed : Timed now v) (config : w.config = v.config)
    (base : w.countbaseSbt = v.countbaseSbt)
    (callouts : ∀ n, (w.timer n).callout.active = true → (v.timer n).callout.active = true) :
    Timed now w where
  callouts n active := (enabled_same config).trans (timed.callouts n (callouts n active))
  base running := by
    rw [base]
    exact timed.base ((enabled_same config).symm.trans running)

theorem handler_kept (kept : Kept now v) (n : TimerNum) :
    ∃ w, vhpetHandler now v n = .ok w ∧ Kept now w := by
  obtain ⟨balanced, timed⟩ := kept
  unfold vhpetHandler
  dsimp only
  split
  · exact ⟨v, rfl, balanced, timed⟩
  · next runs =>
    have active : (v.timer n).callout.active = true := by
      cases on : (v.timer n).callout.active with
      | true => rfl
      | false =>
        rw [on, Bool.not_false, Bool.or_true] at runs
        exact absurd rfl runs
    have running := timed.callouts n active
    generalize begun : v.store n { v.timer n with
      callout := { (v.timer n).callout with active := false } } = u
    have config : u.config = v.config := by
      rw [← begun]
      rfl
    have base : u.countbaseSbt = v.countbaseSbt := by
      rw [← begun]
      rfl
    have after : Balanced u := by
      rw [← begun]
      exact setup_balanced balanced (setup_same rfl) (balanced.rates n)
    have enabled : u.counterEnabled = true := (enabled_same config).trans running
    have past : u.countbaseSbt ≤ now := by
      rw [base]
      exact timed.base running
    obtain ⟨counter, counted⟩ := counter_ran (running_timed enabled past) fun _ => enabled
    obtain ⟨u', started, held, frame⟩ := start_balanced after n counter now
    obtain ⟨w, sent, sound, config', base', -⟩ := interrupt_balanced held n
    rw [enabled, Bool.not_true, if_neg Bool.false_ne_true, bind_ok counted, bind_ok started]
    refine ⟨w, sent, sound, running_timed ?_ ?_⟩
    · exact (enabled_same (config'.trans frame.config)).trans enabled
    · rw [base', frame.base]
      exact past

theorem start_counting_kept (balanced : Balanced v) (running : v.counterEnabled = true) (now : Int) :
    ∃ w, vhpetStartCounting v now = .ok w ∧ Kept now w := by
  have goes := @attempts_keep _ _ _ (fun v n => vhpetStartTimer v n v.countbase v.countbaseSbt)
    (fun _ s => Balanced s ∧ s.config = v.config ∧ s.countbaseSbt = now)
    (fun n _ s held => by
      obtain ⟨holds, config, base⟩ := held
      obtain ⟨w, started, after, frame⟩ := start_balanced holds n s.countbase s.countbaseSbt
      exact ⟨w, started, after, frame.config.trans config, frame.base.trans base⟩)
    (List.finRange vhpetNumTimers)
  have begun : Balanced { v with countbaseSbt := now } :=
    ⟨balanced.status, balanced.balance, balanced.rates, balanced.routes⟩
  obtain ⟨w, ran, after, config, base⟩ := goes _ ⟨begun, rfl, rfl⟩
  exact ⟨w, ran, after, running_timed ((enabled_same config).trans running) (Int.le_of_eq base)⟩

theorem stop_counting_kept (balanced : Balanced v) (stopped : v.counterEnabled = false)
    (counter : BitVec 32) (now time : Int) :
    ∃ w, vhpetStopCounting v counter now = .ok w ∧ Kept time w := by
  have goes := @attempts_keep _ _ _ (fun v n => vhpetStopTimer v n now)
    (fun left s => Balanced s ∧ s.config = v.config ∧
      ∀ n, n ∉ left → (s.timer n).callout.active = false)
    (fun n rest s held => by
      obtain ⟨holds, config, quiet⟩ := held
      obtain ⟨w, done, after, frame, own⟩ := stop_balanced holds n now
      refine ⟨w, done, after, frame.config.trans config, fun m out => ?_⟩
      by_cases here : m = n
      · rw [here]
        exact own
      · rw [frame.others m here]
        apply quiet
        exact List.not_mem_cons_of_ne_of_not_mem here out)
    (List.finRange vhpetNumTimers)
  have begun : Balanced { v with countbase := counter } :=
    ⟨balanced.status, balanced.balance, balanced.rates, balanced.routes⟩
  obtain ⟨w, ran, after, config, quiet⟩ :=
    goes _ ⟨begun, rfl, fun n out => absurd (List.mem_finRange n) out⟩
  have off := (enabled_same config).trans stopped
  refine ⟨w, ran, after, fun n active => ?_, fun running => ?_⟩
  · exact absurd ((quiet n List.not_mem_nil).symm.trans active) Bool.false_ne_true
  · exact absurd (off.symm.trans running) Bool.false_ne_true

theorem masked_equal {x y m : BitVec 64} (same : (x ^^^ y) &&& m = 0) : x &&& m = y &&& m := by
  apply eq_of_getLsbD_eq
  intro i _
  have bit := congrArg (fun b : BitVec 64 => b.getLsbD i) same
  rw [getLsbD_and, getLsbD_xor, ofNat_eq_ofNat, getLsbD_zero,
    Bool.and_xor_distrib_right] at bit
  rw [getLsbD_and, getLsbD_and]
  exact bne_eq_false_iff_eq.mp bit

section
variable (kept : Kept now v)
include kept

theorem write_config_kept (data mask : BitVec 64) :
    ∃ w, writeConfig v now data mask = .ok w ∧ Kept now w := by
  obtain ⟨balanced, timed⟩ := kept
  obtain ⟨counter, counted⟩ := counter_ran timed fun running => running
  have stored : Balanced (configStored v data mask) :=
    ⟨balanced.status, balanced.balance, balanced.rates, balanced.routes⟩
  unfold writeConfig
  rw [bind_ok counted]
  dsimp only
  split
  · split
    · next running => exact start_counting_kept stored running now
    · next stopped => exact stop_counting_kept stored ((Bool.not_eq_true _).mp stopped) _ _ _
  · next same =>
    have enabled : (configStored v data mask).counterEnabled = v.counterEnabled := by
      have equal := masked_equal (not_not.mp same)
      rw [Vhpet.counterEnabled, ← equal, ← Vhpet.counterEnabled]
    refine ⟨_, rfl, stored, ?_, ?_⟩
    · intro n active
      exact enabled.trans (timed.callouts n active)
    · intro running
      exact timed.base (enabled.symm.trans running)

theorem write_isr_kept (data : BitVec 64) : ∃ w, writeIsr v data = .ok w ∧ Kept now w := by
  have goes := fun clear : BitVec 32 =>
    @attempts_keep _ _ _ (fun v (i : TimerNum) =>
      if clear.getLsbD i then vhpetTimerClearIsr v i else .ok v) (fun _ s => Kept now s)
      (fun n _ s held => by
        split
        · obtain ⟨holds, timed⟩ := held
          obtain ⟨w, cleared, after, config, base, timers⟩ := clear_isr_balanced holds n
          refine ⟨w, cleared, after, timed_frame timed config base fun m active => ?_⟩
          rw [timers] at active
          exact active
        · exact ⟨s, rfl, held⟩)
      (List.finRange vhpetNumTimers)
  exact goes _ v kept

theorem write_main_counter_kept (delay : Nat) (data mask : BitVec 64) :
    ∃ w, writeMainCounter v now delay data mask = .ok w ∧ Kept (now + delay) w := by
  obtain ⟨balanced, timed⟩ := kept
  obtain ⟨counter, counted⟩ := counter_ran timed fun never => absurd never Bool.false_ne_true
  unfold writeMainCounter
  rw [bind_ok counted]
  dsimp only
  have stored : Balanced { v with
      countbase := (updateRegister (counter.setWidth 64) data mask).setWidth 32 } :=
    ⟨balanced.status, balanced.balance, balanced.rates, balanced.routes⟩
  split
  · next running => exact start_counting_kept stored running _
  · next stopped =>
    refine ⟨_, rfl, stored, timed.callouts, ?_⟩
    intro running
    exact absurd running stopped

theorem comparator_kept (n : TimerNum) (data mask : BitVec 64) :
    ∃ w, vhpetTimerComparator v now n data mask = .ok w ∧ Kept now w := by
  obtain ⟨balanced, timed⟩ := kept
  obtain ⟨t, written, cap, callout, rate⟩ := comparator_written_ran balanced n data mask
  unfold vhpetTimerComparator
  dsimp only
  rw [bind_ok written]
  generalize cleared : v.store n { t with capConfig := t.capConfig &&& ~~~hpetTcnfValSet } = u
  have same : SameSetup (v.timer n) { t with capConfig := t.capConfig &&& ~~~hpetTcnfValSet } := by
    apply setup_same
    rw [cap, BitVec.and_assoc, BitVec.and_self]
  have after : Balanced u := by
    rw [← cleared]
    apply setup_balanced balanced same
    intro oneShot
    rw [same.kind] at oneShot
    exact rate oneShot
  have config : u.config = v.config := by
    rw [← cleared]
    rfl
  have base : u.countbaseSbt = v.countbaseSbt := by
    rw [← cleared]
    rfl
  have clock : Timed now u := by
    refine timed_frame timed config base fun m active => ?_
    rw [← cleared] at active
    by_cases here : m = n
    · subst here
      rw [store_same] at active
      rw [← callout]
      exact active
    · rw [store_other here] at active
      exact active
  split
  · next restarted =>
    have running := restarted.2
    obtain ⟨counter, counted⟩ := counter_ran clock fun _ => running
    obtain ⟨w, started, holds, frame⟩ := start_balanced after n counter now
    rw [bind_ok counted]
    refine ⟨w, started, holds, running_timed ?_ ?_⟩
    · exact (enabled_same frame.config).trans running
    · rw [frame.base]
      exact clock.base running
  · exact ⟨u, rfl, after, clock⟩

theorem write_timer_kept (n : TimerNum) (data mask : BitVec 64) (register : TimerRegister) :
    ∃ w, writeTimer v now n data mask register = .ok w ∧ Kept now w := by
  cases register with
  | capCnf =>
    obtain ⟨w, ran, after, config, base, own, others⟩ :=
      update_config_balanced kept.1 n data mask
    refine ⟨w, ran, after, timed_frame kept.2 config base fun m active => ?_⟩
    by_cases here : m = n
    · subst here
      rw [own] at active
      exact active
    · rw [others m here] at active
      exact active
  | comparator => exact comparator_kept kept n data mask
  | fsb =>
    refine ⟨_, rfl, setup_balanced kept.1 (setup_same rfl) (kept.1.rates n), ?_⟩
    refine timed_frame kept.2 rfl rfl fun m active => ?_
    by_cases here : m = n
    · subst here
      rw [store_same] at active
      exact active
    · rw [store_other here] at active
      exact active

theorem later_kept (ticks : Nat) : Kept (now + ticks) v := by
  refine ⟨kept.1, kept.2.callouts, fun running => ?_⟩
  have past := kept.2.base running
  omega

theorem mmio_write_kept (delay : Nat) (gpa val : BitVec 64) (size : Int) :
    ∃ w, vhpetMmioWrite v now delay gpa val size = .ok w ∧ Kept (now + delay) w := by
  have later : ∀ {x : Except Fault Vhpet}, (∃ w, x = .ok w ∧ Kept now w) →
      ∃ w, x = .ok w ∧ Kept (now + delay) w := by
    intro x done
    obtain ⟨w, ran, after⟩ := done
    exact ⟨w, ran, later_kept after delay⟩
  unfold vhpetMmioWrite
  dsimp only
  split
  · exact later ⟨v, rfl, kept⟩
  · split
    · exact later (write_config_kept kept _ _)
    · split
      · exact later (write_isr_kept kept _)
      · split
        · exact write_main_counter_kept kept delay _ _
        · split
          · exact later (write_timer_kept kept _ _ _ _)
          · exact later ⟨v, rfl, kept⟩

end

theorem mmio_read_ran (timed : Timed now v) (gpa : BitVec 64) (size : Int) :
    ∃ data, vhpetMmioRead v now gpa size = .ok data := by
  have reads : ∀ offset, ∃ data, readRegister v now offset = .ok data := by
    intro offset
    unfold readRegister
    split
    · exact ⟨_, rfl⟩
    · split
      · exact ⟨_, rfl⟩
      · split
        · exact ⟨_, rfl⟩
        · split
          · obtain ⟨counter, counted⟩ :=
              counter_ran timed fun never => absurd never Bool.false_ne_true
            rw [bind_ok counted]
            exact ⟨_, rfl⟩
          · split
            · exact ⟨_, rfl⟩
            · exact ⟨_, rfl⟩
  unfold vhpetMmioRead
  dsimp only
  split
  · exact ⟨_, rfl⟩
  · obtain ⟨data, ran⟩ := reads ((gpa - vhpetBase).setWidth 32)
    rw [bind_ok ran]
    exact ⟨_, rfl⟩

end

theorem respond_kept {now : Int} {v : Vhpet} (kept : Kept now v) (event : Event) :
    ∃ w, respond now v event = .ok w ∧ Kept (now + elapsed event) w := by
  cases event with
  | elapse ticks => exact ⟨v, rfl, later_kept kept ticks⟩
  | expire n =>
    have same : SameSetup (v.timer n) { v.timer n with
        callout := { (v.timer n).callout with pending := false } } := setup_same rfl
    refine ⟨_, rfl, later_kept ⟨setup_balanced kept.1 same (kept.1.rates n), ?_⟩ 0⟩
    refine timed_frame kept.2 rfl rfl fun m active => ?_
    by_cases here : m = n
    · subst here
      rw [store_same] at active
      exact active
    · rw [store_other here] at active
      exact active
  | callout n =>
    obtain ⟨w, ran, after⟩ := handler_kept kept n
    exact ⟨w, ran, later_kept after 0⟩
  | write gpa val size delay => exact mmio_write_kept kept delay gpa val size
  | read gpa size =>
    obtain ⟨data, ran⟩ := mmio_read_ran kept.2 gpa size
    refine ⟨v, ?_, later_kept kept 0⟩
    show (vhpetMmioRead v now gpa size >>= fun _ => _) = _
    rw [bind_ok ran]

theorem init_pin (pincount : Nat) (n : TimerNum) :
    ((vhpetInit pincount).timer n).ioapicPin = 0 := by
  have low : ∀ i < 32,
      ((hpetTcapPerInt ||| hpetTcapFsbIntDel) &&& hpetTcnfIntRoute).getLsbD i = false := by decide
  have high : ∀ i < 64, ¬ i < 32 → hpetTcnfIntRoute.getLsbD i = false := by decide
  have unrouted : ((vhpetInit pincount).timer n).capConfig &&& hpetTcnfIntRoute = 0 := by
    apply eq_of_getLsbD_eq
    intro i inside
    show ((allowedAtInit pincount <<< 32 ||| hpetTcapPerInt ||| hpetTcapFsbIntDel) &&&
      hpetTcnfIntRoute).getLsbD i = _
    rw [BitVec.or_assoc, getLsbD_and, getLsbD_or, getLsbD_shiftLeft,
      ofNat_eq_ofNat, getLsbD_zero]
    by_cases below : i < 32
    · rw [decide_eq_true below, Bool.not_true, Bool.and_false, Bool.false_and, Bool.false_or,
        ← getLsbD_and]
      exact low i below
    · rw [high i inside below, Bool.and_false]
  rw [Timer.ioapicPin, unrouted]
  split
  · rfl
  · rfl

theorem init_kept (pincount : Nat) (now : Int) : Kept now (vhpetInit pincount) := by
  have clear : ∀ i, (vhpetInit pincount).isr.getLsbD i = false := fun i => getLsbD_zero
  have off : (vhpetInit pincount).counterEnabled = false := by
    show decide ((0 : BitVec 64) &&& hpetCnfEnable ≠ 0) = false
    decide
  refine ⟨⟨fun i set_ => ?_, fun pin => ?_, fun n _ => rfl, fun n pin => ?_⟩, fun n never => ?_,
    fun running => ?_⟩
  · exact absurd ((clear i).symm.trans set_) Bool.false_ne_true
  · have empty : holders (vhpetInit pincount) pin = ∅ := by
      apply Finset.eq_empty_of_forall_notMem
      intro n member
      have set_ := ((mem_holders n pin).mp member).1
      exact absurd ((clear n).symm.trans set_) Bool.false_ne_true
    rw [empty]
    rfl
  · exact absurd (init_pin pincount n) pin
  · cases never
  · exact absurd (off.symm.trans running) Bool.false_ne_true

theorem step_kept {d : Device} (kept : Kept d.now d.vhpet) (event : Event) :
    ∃ d', step d event = .ok d' ∧ Kept d'.now d'.vhpet := by
  obtain ⟨w, ran, after⟩ := respond_kept kept event
  refine ⟨⟨w, d.now + elapsed event⟩, ?_, after⟩
  unfold step
  rw [bind_ok ran]

theorem sound_of_kept {now : Int} {v : Vhpet} (kept : Kept now v) : Sound v :=
  ⟨kept.1.status, kept.1.balance, kept.2.callouts, kept.1.rates⟩

/-- Every run from the start goes through: no assertion fails and nothing panics. In the state that
    it leads to every assertion of a pin is held by a timer that may hold it. -/
theorem runs_sound (pincount : Nat) (now : Int) (events : List Event) :
    ∃ d, attempts step ⟨vhpetInit pincount, now⟩ events = .ok d ∧ Sound d.vhpet := by
  have goes := @attempts_keep _ _ _ step (fun _ d => Kept d.now d.vhpet)
    (fun event _ d kept => step_kept kept event) events
  obtain ⟨d, ran, kept⟩ := goes ⟨vhpetInit pincount, now⟩ (init_kept pincount now)
  exact ⟨d, ran, sound_of_kept kept⟩

end Hpet
