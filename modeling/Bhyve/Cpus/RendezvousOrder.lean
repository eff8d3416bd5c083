import Bhyve.Lib.Histories
import Bhyve.Lib.StepRuns
import Bhyve.Cpus.Rendezvous

namespace Rendezvous
open Histories StepRuns Function List
variable {F A T : Type} {log events : List (Event F A)} {c : Call F A} {e : Event F A}

def Unbroken (events : List (Event F A)) : Prop :=
  (∀ c, Event.began c ∉ events) ∧ ∀ act, Event.completed act ∉ events

def FirstHandled (act : Finset Nat) (events : List (Event F A)) : Prop :=
  ∃ before after, events = before ++ .handled act :: after ∧ ∀ act', Event.handled act' ∉ before

def Event.ranOn (v : Nat) : Event F A → Bool
  | .ran w _ _ => decide (w = v)
  | _ => false

def Exact (c : Call F A) (cpus : Finset Nat) (events : List (Event F A)) : Prop :=
  (∀ v, events.countP (Event.ranOn v) = if v ∈ cpus then 1 else 0) ∧
    ∀ v func arg, .ran v func arg ∈ events → func = c.func ∧ arg = c.arg

def Whole (c : Call F A) (events : List (Event F A)) : Prop :=
  Unbroken events ∧ ∃ act, FirstHandled act events ∧ Exact c (c.dest ∩ act) events

def Settled (log : List (Event F A)) : Prop :=
  ∀ before c after, log = before ++ .began c :: after →
    ∃ events act rest, after = events ++ .completed act :: rest ∧ Whole c events

def Performed (c : Call F A) (log : List (Event F A)) : Prop :=
  ∃ before events act after,
    log = before ++ .began c :: (events ++ .completed act :: after) ∧ Whole c events

def Allowed (log : List (Event F A)) : Event F A → Prop
  | .began c => Settled log ∧ ∀ c', Event.began c' ∈ log → c'.id ≠ c.id
  | .ran _ func arg =>
      ∃ before c events, log = before ++ .began c :: events ∧ Unbroken events ∧
        func = c.func ∧ arg = c.arg
  | .completed _ => ∃ before c events, log = before ++ .began c :: events ∧ Whole c events
  | .returned c => Performed c log
  | .handled _ | .failed _ => True

theorem settled_snoc (settled : Settled log) (other : ∀ c, e ≠ .began c) :
    Settled (log ++ [e]) := by
  intro before c after split
  obtain ⟨rest, same, rfl⟩ | ⟨-, began, -⟩ := split_snoc split
  · obtain ⟨events, act, rest', rfl, whole⟩ := settled before c rest same
    exact ⟨events, act, rest' ++ [e], by simp, whole⟩
  · exact absurd began (other c)

theorem settled_performed (settled : Settled log) (began : Event.began c ∈ log) :
    Performed c log := by
  obtain ⟨before, after, split⟩ := append_of_mem began
  obtain ⟨events, act, rest, rfl, whole⟩ := settled before c after split
  exact ⟨before, events, act, rest, split, whole⟩

theorem settled_complete {before : List (Event F A)} {act : Finset Nat} (settled : Settled before)
    (whole : Whole c events) : Settled (before ++ .began c :: events ++ [.completed act]) := by
  intro first c' after split
  rw [List.append_assoc, List.cons_append] at split
  obtain ⟨inner, rfl, same⟩ | ⟨inner, rfl, same⟩ := List.append_eq_append_iff.mp split
  · cases inner with
    | nil =>
      cases same
      exact ⟨events, act, [], rfl, whole⟩
    | cons e inner =>
      obtain ⟨rfl, later⟩ := List.cons_eq_cons.mp same
      have member : Event.began c' ∈ events ++ [.completed act] := by
        rw [later]
        exact mem_append_right _ mem_cons_self
      obtain inside | never := List.mem_append.mp member
      · exact absurd inside (whole.1.1 c')
      · cases List.mem_singleton.mp never
  · cases inner with
    | nil =>
      cases same
      exact ⟨events, act, [], rfl, whole⟩
    | cons e inner =>
      rw [List.cons_append] at same
      obtain ⟨rfl, rfl⟩ := List.cons_eq_cons.mp same
      obtain ⟨events', act', rest, rfl, whole'⟩ := settled first c' inner rfl
      exact ⟨events', act', rest ++ .began c :: (events ++ [.completed act]), by simp, whole'⟩

theorem unbroken_snoc (unbroken : Unbroken events) (began : ∀ c, e ≠ .began c)
    (completed : ∀ act, e ≠ .completed act) : Unbroken (events ++ [e]) := by
  constructor
  · intro c member
    obtain inside | last := List.mem_append.mp member
    · exact unbroken.1 c inside
    · exact began c (List.mem_singleton.mp last).symm
  · intro act member
    obtain inside | last := List.mem_append.mp member
    · exact unbroken.2 act inside
    · exact completed act (List.mem_singleton.mp last).symm

theorem first_handled_snoc {act : Finset Nat} (first : FirstHandled act events) :
    FirstHandled act (events ++ [e]) := by
  obtain ⟨before, after, rfl, none_⟩ := first
  exact ⟨before, after ++ [e], by simp, none_⟩

theorem exact_snoc {cpus : Finset Nat} (ran : Exact c cpus events)
    (other : ∀ v func arg, e ≠ .ran v func arg) : Exact c cpus (events ++ [e]) := by
  constructor
  · intro v
    have quiet : Event.ranOn v e = false := by
      cases e with
      | ran w func arg => exact absurd rfl (other w func arg)
      | _ => rfl
    rw [countP_append, ran.1 v]
    simp [quiet]
  · intro v func arg member
    obtain inside | last := List.mem_append.mp member
    · exact ran.2 v func arg inside
    · exact absurd (List.mem_singleton.mp last).symm (other v func arg)

theorem exact_run {cpus : Finset Nat} {v : Nat} (ran : Exact c cpus events) (new : v ∉ cpus) :
    Exact c (insert v cpus) (events ++ [.ran v c.func c.arg]) := by
  constructor
  · intro w
    rw [countP_append, ran.1 w, countP_singleton]
    by_cases same : v = w
    · subst same
      simp [Event.ranOn, new]
    · have other : w ≠ v := fun here => same here.symm
      simp [Event.ranOn, same, other]
  · intro w func arg member
    obtain inside | last := List.mem_append.mp member
    · exact ran.2 w func arg inside
    · cases List.mem_singleton.mp last
      exact ⟨rfl, rfl⟩

section
variable {req done active : Finset Nat}

structure Going (req done active : Finset Nat) (c : Call F A) (events : List (Event F A)) : Prop where
  unbroken : Unbroken events
  within : done ⊆ req
  ran : Exact c done events
  request : (req = c.dest ∧ done = ∅ ∧ ∀ act, Event.handled act ∉ events) ∨
    ∃ act, FirstHandled act events ∧ req = c.dest ∩ act ∧ act ⊆ active

theorem going_snoc (going : Going req done active c events) (began : ∀ c, e ≠ .began c)
    (completed : ∀ act, e ≠ .completed act) (ran : ∀ v func arg, e ≠ .ran v func arg)
    (handled : ∀ act, e ≠ .handled act) : Going req done active c (events ++ [e]) := by
  refine ⟨unbroken_snoc going.unbroken began completed, going.within, exact_snoc going.ran ran, ?_⟩
  obtain ⟨dest, empty, before⟩ | ⟨act, first, same, sub⟩ := going.request
  · refine .inl ⟨dest, empty, fun act member => ?_⟩
    obtain inside | last := List.mem_append.mp member
    · exact before act inside
    · exact handled act (List.mem_singleton.mp last).symm
  · exact .inr ⟨act, first_handled_snoc first, same, sub⟩

theorem going_handled (going : Going req done active c events) :
    Going (req ∩ active) done active c (events ++ [.handled active]) ∧
      ∃ act, FirstHandled act (events ++ [.handled active]) ∧
        req ∩ active = c.dest ∩ act := by
  have unbroken : Unbroken (events ++ [Event.handled active]) :=
    unbroken_snoc going.unbroken (by simp) (by simp)
  have ran : Exact c done (events ++ [.handled active]) :=
    exact_snoc going.ran (by simp)
  obtain ⟨rfl, rfl, before⟩ | ⟨act, first, rfl, sub⟩ := going.request
  · have first : FirstHandled active (events ++ [Event.handled active]) :=
      ⟨events, [], rfl, before⟩
    exact ⟨⟨unbroken, Finset.empty_subset _, ran, .inr ⟨active, first, rfl, Finset.Subset.refl _⟩⟩,
      active, first, rfl⟩
  · have same : c.dest ∩ act ∩ active = c.dest ∩ act := by
      rw [Finset.inter_assoc, Finset.inter_eq_left.mpr sub]
    rw [same]
    exact ⟨⟨unbroken, going.within, ran, .inr ⟨act, first_handled_snoc first, rfl, sub⟩⟩,
      act, first_handled_snoc first, rfl⟩

theorem going_run {v : Nat} (going : Going req done active c events) {act : Finset Nat}
    (first : FirstHandled act events) (target : v ∈ req) (new : v ∉ done) :
    Going req (insert v done) active c (events ++ [.ran v c.func c.arg]) := by
  refine ⟨unbroken_snoc going.unbroken (by simp) (by simp),
    Finset.insert_subset target going.within, exact_run going.ran new, ?_⟩
  obtain ⟨-, -, before⟩ | ⟨act', first', same, sub⟩ := going.request
  · obtain ⟨first, rest, rfl, -⟩ := first
    exact absurd (mem_append_right _ mem_cons_self) (before act)
  · exact .inr ⟨act', first_handled_snoc first', same, sub⟩

theorem going_whole (going : Going req done active c events) {act : Finset Nat}
    (first : FirstHandled act events) (all : req = done) (same : req = c.dest ∩ act) :
    Whole c events := by
  refine ⟨going.unbroken, act, first, ?_⟩
  rw [← same, all]
  exact going.ran

/-- The log, by what is in rendezvous_func. -/
def Progress (s : Vm F A T) : Prop :=
  match s.func with
  | none => Settled s.log
  | some (func, arg) =>
      ∃ before c events, s.log = before ++ .began c :: events ∧ Settled before ∧
        func = c.func ∧ arg = c.arg ∧ Going s.reqCpus s.doneCpus s.active c events

end

section

def Pc.cont : Pc F A → Option (Cont F A)
  | .handle _ k | .sleeping _ k | .check _ k => some k
  | _ => none

def Pc.Waits (pc : Pc F A) (c : Call F A) : Prop := pc = .call c ∨ pc.cont = some (.restart c)

structure Threads (pc : T → Pc F A) (calls : Nat) (log : List (Event F A)) : Prop where
  waits : ∀ t c, (pc t).Waits c → c.id < calls ∧ ∀ c', Event.began c' ∈ log → c'.id ≠ c.id
  apart : ∀ t t' c c', (pc t).Waits c → (pc t').Waits c' → c.id = c'.id → t = t'
  initiated : ∀ t c, (pc t).cont = some (.initiate c) → Event.began c ∈ log
  begun : ∀ c, Event.began c ∈ log → c.id < calls

variable {pc : T → Pc F A} {calls : Nat}

theorem threads_snoc (threads : Threads pc calls log) (other : ∀ c, e ≠ .began c) :
    Threads pc calls (log ++ [e]) := by
  have before : ∀ c, Event.began c ∈ log ++ [e] → Event.began c ∈ log := by
    intro c member
    obtain inside | last := List.mem_append.mp member
    · exact inside
    · exact absurd (List.mem_singleton.mp last).symm (other c)
  exact ⟨fun t c here => ⟨(threads.waits t c here).1,
      fun c' member => (threads.waits t c here).2 c' (before c' member)⟩,
    threads.apart, fun t c here => mem_append_left _ (threads.initiated t c here),
    fun c member => threads.begun c (before c member)⟩

variable [DecidableEq T] {t : T} {new : Pc F A}

theorem threads_goto (threads : Threads pc calls log) (waits : ∀ c, new.Waits c → (pc t).Waits c)
    (initiated : ∀ c, new.cont = some (.initiate c) → Event.began c ∈ log) :
    Threads (update pc t new) calls log := by
  have old : ∀ u c, (update pc t new u).Waits c → (pc u).Waits c := by
    intro u c here
    by_cases same : u = t
    · subst same
      rw [update_self] at here
      exact waits c here
    · rwa [update_of_ne same] at here
  refine ⟨fun u c here => threads.waits u c (old u c here),
    fun u u' c c' here here' => threads.apart u u' c c' (old u c here) (old u' c' here'), ?_,
    threads.begun⟩
  intro u c here
  by_cases same : u = t
  · subst same
    rw [update_self] at here
    exact initiated c here
  · rw [update_of_ne same] at here
    exact threads.initiated u c here

theorem threads_plain (threads : Threads pc calls log) (waits : ∀ c, ¬ new.Waits c)
    (initiated : ∀ c, new.cont ≠ some (.initiate c)) : Threads (update pc t new) calls log :=
  threads_goto threads (fun c here => absurd here (waits c)) fun c here => absurd here (initiated c)

theorem threads_call (threads : Threads pc calls log) (fresh : c.id = calls) :
    Threads (update pc t (.call c)) (calls + 1) log := by
  have cases_ : ∀ u c', (update pc t (.call c) u).Waits c' →
      (u = t ∧ c' = c) ∨ (u ≠ t ∧ (pc u).Waits c') := by
    intro u c' here
    by_cases same : u = t
    · subst same
      rw [update_self] at here
      obtain here | never := here
      · cases here
        exact .inl ⟨rfl, rfl⟩
      · cases never
    · rw [update_of_ne same] at here
      exact .inr ⟨same, here⟩
  constructor
  · intro u c' here
    obtain ⟨-, rfl⟩ | ⟨-, waits⟩ := cases_ u c' here
    · refine ⟨by omega, fun c' member => ?_⟩
      have := threads.begun c' member
      omega
    · obtain ⟨small, others⟩ := threads.waits u c' waits
      exact ⟨by omega, others⟩
  · intro u u' c₁ c₂ here here' same
    obtain ⟨rfl, rfl⟩ | ⟨-, waits⟩ := cases_ u c₁ here <;>
      obtain ⟨rfl, rfl⟩ | ⟨-, waits'⟩ := cases_ u' c₂ here'
    · rfl
    · have := (threads.waits u' c₂ waits').1
      omega
    · have := (threads.waits u c₁ waits).1
      omega
    · exact threads.apart u u' c₁ c₂ waits waits' same
  · intro u c' here
    by_cases same : u = t
    · subst same
      rw [update_self] at here
      cases here
    · rw [update_of_ne same] at here
      exact threads.initiated u c' here
  · intro c' member
    have := threads.begun c' member
    omega

theorem threads_begin (threads : Threads pc calls log) (waits : (pc t).Waits c) :
    Threads (update pc t (.handle c.vcpuid (.initiate c))) calls (log ++ [.began c]) := by
  have old : ∀ u c', (update pc t (.handle c.vcpuid (.initiate c)) u).Waits c' →
      u ≠ t ∧ (pc u).Waits c' := by
    intro u c' here
    by_cases same : u = t
    · subst same
      rw [update_self] at here
      obtain never | never := here <;> cases never
    · rw [update_of_ne same] at here
      exact ⟨same, here⟩
  constructor
  · intro u c' here
    obtain ⟨other, here⟩ := old u c' here
    obtain ⟨small, others⟩ := threads.waits u c' here
    refine ⟨small, fun c₀ member same => ?_⟩
    obtain inside | last := List.mem_append.mp member
    · exact others c₀ inside same
    · cases List.mem_singleton.mp last
      exact other (threads.apart u t c' c here waits same.symm)
  · intro u u' c₁ c₂ here here'
    exact threads.apart u u' c₁ c₂ (old u c₁ here).2 (old u' c₂ here').2
  · intro u c' here
    by_cases same : u = t
    · subst same
      rw [update_self] at here
      cases here
      exact mem_append_right _ (mem_singleton_self _)
    · rw [update_of_ne same] at here
      exact mem_append_left _ (threads.initiated u c' here)
  · intro c' member
    obtain inside | last := List.mem_append.mp member
    · exact threads.begun c' inside
    · cases List.mem_singleton.mp last
      exact (threads.waits t c waits).1

end

section
variable {s : Vm F A T} {t : T} {k : Cont F A}

structure Inv (s : Vm F A T) : Prop where
  order : EachAfter Allowed s.log
  progress : Progress s
  threads : Threads s.pc s.calls s.log

theorem progress_failed (progress : Progress s) : Progress (s.note [.failed c]) := by
  unfold Progress Vm.note at *
  cases free : s.func with
  | none =>
    rw [free] at progress
    exact settled_snoc progress (by simp)
  | some f =>
    rw [free] at progress
    obtain ⟨before, c', events, split, settled, func, arg, going⟩ := progress
    exact ⟨before, c', events ++ [.failed c], by simp [split], settled, func, arg,
      going_snoc going (by simp) (by simp) (by simp) (by simp)⟩

theorem inv_failed (inv : Inv s) : Inv (s.note [.failed c]) :=
  ⟨each_after_snoc inv.order trivial, progress_failed inv.progress,
    threads_snoc inv.threads (by simp)⟩

variable {new : Pc F A} {act : Finset Nat} {before : List (Event F A)}

theorem plain_waits (calls : ∀ c, new ≠ .call c) (cont : new.cont = none) (c : Call F A) :
    ¬ new.Waits c := by
  rintro (never | never)
  · exact calls c never
  · rw [cont] at never
    cases never

theorem inv_returned (inv : Inv s) (free : s.func = none) (began : Event.began c ∈ s.log) :
    Inv (s.note [.returned c]) := by
  have settled : Settled s.log := by
    have progress := inv.progress
    unfold Progress at progress
    rwa [free] at progress
  refine ⟨each_after_snoc inv.order (settled_performed settled began), ?_,
    threads_snoc inv.threads (by simp)⟩
  unfold Progress Vm.note
  rw [free]
  exact settled_snoc settled (by simp)

/-- The state in which a turn looks at the request, and what is known of the rendezvous then. -/
structure Handled (act : Finset Nat) (before : List (Event F A)) (c : Call F A)
    (events : List (Event F A)) (s : Vm F A T) : Prop where
  order : EachAfter Allowed s.log
  threads : Threads s.pc s.calls s.log
  func : s.func = some (c.func, c.arg)
  split : s.log = before ++ .began c :: events
  settled : Settled before
  going : Going s.reqCpus s.doneCpus s.active c events
  first : FirstHandled act events
  request : s.reqCpus = c.dest ∩ act

theorem inv_handled (handled : Handled act before c events s) : Inv s := by
  refine ⟨handled.order, ?_, handled.threads⟩
  unfold Progress
  rw [handled.func]
  exact ⟨before, c, events, handled.split, handled.settled, rfl, rfl, handled.going⟩

theorem handled_turn (inv : Inv s) {func : F} {arg : A} (busy : s.func = some (func, arg)) :
    ∃ act before c events, func = c.func ∧ arg = c.arg ∧ Handled act before c events
      { s.note [.handled s.active] with reqCpus := s.reqCpus ∩ s.active } := by
  have progress := inv.progress
  unfold Progress at progress
  rw [busy] at progress
  obtain ⟨before, c, events, split, settled, rfl, rfl, going⟩ := progress
  obtain ⟨going, act, first, request⟩ := going_handled going
  refine ⟨act, before, c, events ++ [Event.handled s.active], rfl, rfl,
    each_after_snoc inv.order trivial, threads_snoc inv.threads (by simp), busy, ?_, settled, going,
    first, request⟩
  change s.log ++ [.handled s.active] = _
  rw [split]
  simp

theorem handled_run (vcpuid : Option Nat) (handled : Handled act before c events s) :
    ∃ events, Handled act before c events (runFunc vcpuid c.func c.arg s) := by
  cases vcpuid with
  | none => exact ⟨events, handled⟩
  | some v =>
    unfold runFunc
    dsimp only
    split
    · next target =>
      refine ⟨events ++ [Event.ran v c.func c.arg], ?_, threads_snoc handled.threads (by simp),
        handled.func, ?_, handled.settled,
        going_run handled.going handled.first target.1 target.2, first_handled_snoc handled.first,
        handled.request⟩
      · exact each_after_snoc handled.order
          ⟨before, c, events, handled.split, handled.going.unbroken, rfl, rfl⟩
      · change s.log ++ [.ran v c.func c.arg] = _
        rw [handled.split]
        simp
    · exact ⟨events, handled⟩

theorem run_func_pc {vcpuid : Option Nat} {func : F} {arg : A} :
    (runFunc vcpuid func arg s).pc = s.pc := by
  unfold runFunc
  split
  · rfl
  · split <;> rfl

theorem handled_complete (handled : Handled act before c events s) (all : s.reqCpus = s.doneCpus) :
    Inv { s.note [.completed s.active] with func := none } := by
  have whole := going_whole handled.going handled.first all handled.request
  refine ⟨each_after_snoc handled.order ⟨before, c, events, handled.split, whole⟩, ?_,
    threads_snoc handled.threads (by simp)⟩
  change Settled (s.log ++ [.completed s.active])
  rw [handled.split]
  exact settled_complete handled.settled whole

theorem inv_activate (inv : Inv s) {v : Nat} : Inv (vmActivateCpu v s) := by
  unfold vmActivateCpu
  split
  · refine ⟨inv.order, ?_, inv.threads⟩
    have progress := inv.progress
    unfold Progress at progress ⊢
    cases free : s.func with
    | none =>
      rw [free] at progress
      exact progress
    | some f =>
      rw [free] at progress
      obtain ⟨before, c, events, split, settled, func, arg, unbroken, within, ran, request⟩ := progress
      refine ⟨before, c, events, split, settled, func, arg, unbroken, within, ran, ?_⟩
      obtain fresh | ⟨act, first, same, sub⟩ := request
      · exact .inl fresh
      · exact .inr ⟨act, first, same, sub.trans (Finset.subset_insert _ _)⟩
  · exact inv

theorem inv_created (maxcpus : Nat) (active : Finset Nat) :
    Inv (created maxcpus active : Vm F A T) := by
  refine ⟨each_after_nil, fun before c after never => ?_, ?_, ?_, ?_, ?_⟩
  · cases before <;> cases never
  · rintro t c (never | never) <;> cases never
  · rintro t t' c c' (never | never) <;> cases never
  · intro t c never
    cases never
  · intro c never
    cases never

variable [DecidableEq T]

section
variable (inv : Inv s)
include inv

theorem inv_goto (waits : ∀ c, new.Waits c → (s.pc t).Waits c)
    (initiated : ∀ c, new.cont = some (.initiate c) → Event.began c ∈ s.log) : Inv (s.goto t new) :=
  ⟨inv.order, inv.progress, threads_goto inv.threads waits initiated⟩

theorem inv_plain (calls : ∀ c, new ≠ .call c) (cont : new.cont = none) : Inv (s.goto t new) := by
  refine inv_goto inv (fun c here => absurd here (plain_waits calls cont c)) fun c here => ?_
  rw [cont] at here
  cases here

theorem inv_same (calls : ∀ c, new ≠ .call c) (cont : new.cont = (s.pc t).cont) :
    Inv (s.goto t new) := by
  refine inv_goto inv (fun c here => ?_) fun c here => inv.threads.initiated t c (cont.symm.trans here)
  obtain never | here := here
  · exact absurd never (calls c)
  · exact .inr (cont.symm.trans here)

theorem inv_handle_return {error : Bool} (free : error = false → s.func = none)
    (cont : (s.pc t).cont = some k) : Inv (handleReturn t k error s) := by
  cases k with
  | run => exact inv_plain inv (by simp) rfl
  | suspend v =>
    cases error with
    | true => exact inv_plain inv (by simp) rfl
    | false => exact inv_plain inv (by simp) rfl
  | restart c =>
    cases error with
    | true => exact inv_plain (inv_failed inv) (by simp) rfl
    | false =>
      refine inv_goto inv (fun c' here => ?_) nofun
      obtain here | never := here
      · cases here
        exact .inr cont
      · cases never
  | initiate c =>
    cases error with
    | true => exact inv_plain (inv_failed inv) (by simp) rfl
    | false =>
      exact inv_plain (inv_returned inv (free rfl) (inv.threads.initiated t c cont)) (by simp) rfl

theorem inv_handle_turn {vcpuid : Option Nat} (cont : (s.pc t).cont = some k) :
    Inv (handleTurn t vcpuid k s) := by
  unfold handleTurn
  split
  · next free => exact inv_handle_return inv (fun _ => free) cont
  · next func arg busy =>
    obtain ⟨act, before, c, events, rfl, rfl, handled⟩ := handled_turn inv busy
    obtain ⟨events, handled⟩ := handled_run vcpuid handled
    dsimp only
    split
    · next all =>
      refine inv_handle_return (handled_complete handled all) (fun _ => rfl) ?_
      change ((runFunc vcpuid c.func c.arg _).pc t).cont = some k
      rw [run_func_pc]
      exact cont
    · refine inv_same (inv_handled handled) (by simp) ?_
      rw [run_func_pc]
      exact cont.symm

theorem inv_call_turn (waits : s.pc t = .call c) : Inv (callTurn t c s) := by
  unfold callTurn
  split
  · refine inv_goto inv (fun c' here => ?_) nofun
    obtain never | here := here
    · cases never
    · cases here
      exact .inl waits
  · next free =>
    have settled := inv.progress
    unfold Progress at settled
    rw [free] at settled
    have waiting : (s.pc t).Waits c := .inl waits
    refine ⟨each_after_snoc inv.order ⟨settled, (inv.threads.waits t c waiting).2⟩, ?_,
      threads_begin inv.threads waiting⟩
    refine ⟨s.log, c, [], rfl, settled, rfl, rfl, ⟨by simp, by simp⟩, Finset.empty_subset _,
      ⟨fun v => ?_, by simp⟩, .inl ⟨rfl, rfl, by simp⟩⟩
    exact (if_neg (Finset.notMem_empty v)).symm

theorem inv_suspend_turn {v : Nat} : Inv (suspendTurn t v s) := by
  unfold suspendTurn
  split
  · exact inv_plain inv (by simp) rfl
  · split
    · exact inv_plain inv (by simp) rfl
    · refine inv_goto inv (fun c here => ?_) nofun
      obtain never | never := here <;> cases never

theorem inv_thread_turn {flag : Bool} : Inv (threadTurn t flag s) := by
  unfold threadTurn
  split
  · exact inv
  · next c here => exact inv_call_turn inv here
  · next v k here => exact inv_handle_turn inv (by rw [here]; rfl)
  · next v k here => exact inv_handle_turn inv (by rw [here]; rfl)
  · next v k here => exact inv_same inv (by simp) (by rw [here]; rfl)
  · next v k here => exact inv_same inv (by simp) (by rw [here]; rfl)
  · next v k here => exact inv_handle_return inv nofun (by rw [here]; rfl)
  · exact inv_suspend_turn inv
  all_goals exact inv_plain inv (by simp) rfl

theorem inv_step (e : Step F A T) : Inv (step s e) := by
  cases e with
  | activate v => exact inv_activate inv
  | go t flag => exact inv_thread_turn inv
  | call t vcpuid dest func arg =>
    unfold step
    dsimp only
    split
    · exact ⟨inv.order, inv.progress, threads_call inv.threads rfl⟩
    · exact inv
  | enter t v =>
    unfold step
    dsimp only
    split
    · refine inv_goto inv (fun c here => ?_) nofun
      obtain never | never := here <;> cases never
    · exact inv
  | suspend t v =>
    unfold step
    dsimp only
    split
    · exact ⟨inv.order, inv.progress,
        threads_plain inv.threads (plain_waits (by simp) rfl) (by simp [Pc.cont])⟩
    · exact inv

end

/-- In every run each event of the log is allowed by what comes before it. -/
theorem rendezvous_once (maxcpus : Nat) (active : Finset Nat) (steps : List (Step F A T)) :
    EachAfter Allowed (run step (created maxcpus active) steps).log :=
  (@invariant_every_run (Vm F A T) _ step Inv (fun _ e inv => inv_step inv e) steps _
    (inv_created maxcpus active)).order

end

def PerformedOnActive (c : Call F A) (log : List (Event F A)) : Prop :=
  ∃ before events act after,
    log = before ++ .began c :: (events ++ .completed act :: after) ∧ Exact c (c.dest ∩ act) events

def lateActivation : List (Step Unit Unit (Fin 2)) :=
  [.call 0 none {0, 1} () (), .go 0 false, .go 0 false, .activate 1, .enter 1 0, .go 1 false,
    .go 0 false]

theorem late_activation_misses : ∃ c, .returned c ∈ (run step (created 2 {0}) lateActivation).log ∧
      ¬ PerformedOnActive c (run step (created 2 {0}) lateActivation).log := by
  have log : (run step (created 2 {0}) lateActivation).log =
      [.began ⟨0, none, {0, 1}, (), ()⟩, .handled {0}, .handled {1, 0}, .ran 0 () (),
        .completed {1, 0}, .returned ⟨0, none, {0, 1}, (), ()⟩] := by
    rfl
  rw [log]
  refine ⟨⟨0, none, {0, 1}, (), ()⟩, by simp, ?_⟩
  rintro ⟨before, events, act, after, split, ran, -⟩
  have member : Event.completed act ∈
      before ++ .began ⟨0, none, {0, 1}, (), ()⟩ :: (events ++ .completed act :: after) := by
    simp
  rw [← split] at member
  obtain rfl : act = {1, 0} := by simpa using member
  have once := ran 1
  rw [if_pos (by decide)] at once
  have none_ : ([.began ⟨0, none, {0, 1}, (), ()⟩, .handled {0}, .handled {1, 0}, .ran 0 () (),
      .completed {1, 0}, .returned ⟨0, none, {0, 1}, (), ()⟩] : List (Event Unit Unit)).countP
        (Event.ranOn 1) = 0 := by
    rfl
  rw [split, countP_append, countP_cons, countP_append] at none_
  omega
end Rendezvous
