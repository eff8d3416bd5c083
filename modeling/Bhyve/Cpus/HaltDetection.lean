import Bhyve.Lib.StepRuns
import Bhyve.Cpus.Hlt

namespace Hlt
open StepRuns
variable {s : Vm} {v : Nat} {f f' : Frame}

def Inside (s : Vm) (v : Nat) : Prop := ∃ f, s.frame v = some f ∧ f.intrDisabled = true

/-- Every active vcpu is, and none of them has an NMI pending. -/
def AllHalted (s : Vm) : Prop := ∀ v ∈ s.activeCpus, Inside s v ∧ v ∉ s.nmiPending

def Requests (s : Vm) : Step → Prop
  | .go v _ => ∃ f, s.frame v = some f ∧ f.pc = .request
  | _ => False

/-- The step is taken, the halted vcpus are as they should be after it, and the guest is asked to
    halt in a state where every active vcpu is halted. -/
def TellsHalted (s : Vm) (e : Step) : Prop :=
  (∃ s', step s e = .ok s' ∧ ∀ v ∈ s'.haltedCpus, Inside s' v) ∧ (Requests s e → AllHalted s)

def Frame.deciding (f : Frame) : Bool :=
  match f.pc with
  | .clear | .unlock => f.vmHalted
  | .request => true
  | _ => false

def Undecided (s : Vm) (v : Nat) : Prop := ∀ f, s.frame v = some f → f.deciding = false

def LeavesQuietly (s : Vm) (v : Nat) : Prop := v ∈ s.activeCpus → ∀ w, w ≠ v → Undecided s w

/-- What must not come between: the error return of a halted vcpu, an NMI that is pending where
    the vcpus are found halted, and after that an NMI, an activation or a vcpu that leaves. -/
def Undisturbed (s : Vm) : Step → Prop
  | .go v flag => ∀ f, s.frame v = some f →
      match f.pc with
      | .compare => s.haltedCpus = s.activeCpus → ∀ w ∈ s.activeCpus, w ∉ s.nmiPending
      | .check => flag = true → f.vcpuHalted = false ∧ LeavesQuietly s v
      | .ret => LeavesQuietly s v
      | _ => True
  | .injectNmi v => v ∈ s.activeCpus → ∀ w, Undecided s w
  | .activate v => v ∉ s.activeCpus → ∀ w, Undecided s w
  | _ => True

def Pc.locked : Pc → Bool
  | .unlock | .request | .ret => false
  | _ => true

def Pc.early : Pc → Bool
  | .clear | .unlock | .request | .ret => false
  | _ => true

structure Inv (s : Vm) : Prop where
  early : ∀ v f, s.frame v = some f → f.pc.early = true → f.vmHalted = false
  halted : ∀ v ∈ s.haltedCpus, ∃ f, s.frame v = some f ∧ f.vcpuHalted = true ∧
    f.intrDisabled = true ∧ f.pc.locked = true
  decided : ∀ v f, s.frame v = some f → f.deciding = true → AllHalted s

theorem frame_self (v : Nat) (f : Option Frame) (s : Vm) : (s.setFrame v f).frame v = f :=
  Function.update_self _ _ _

theorem frame_other {w : Nat} (other : w ≠ v) (f : Option Frame) (s : Vm) :
    (s.setFrame v f).frame w = s.frame w :=
  Function.update_of_ne other _ _

theorem inv_inside (inv : Inv s) (member : v ∈ s.haltedCpus) : Inside s v := by
  obtain ⟨f, here, -, disabled, -⟩ := inv.halted v member
  exact ⟨f, here, disabled⟩

theorem inside_set (here : s.frame v = some f) (same : f'.intrDisabled = f.intrDisabled) {w : Nat}
    (inside : Inside s w) : Inside (s.setFrame v (some f')) w := by
  obtain ⟨g, there, disabled⟩ := inside
  by_cases same_ : w = v
  · subst same_
    cases here.symm.trans there
    exact ⟨f', frame_self w _ s, same.trans disabled⟩
  · exact ⟨g, (frame_other same_ _ s).trans there, disabled⟩

theorem all_halted_set (here : s.frame v = some f) (same : f'.intrDisabled = f.intrDisabled)
    (all : AllHalted s) : AllHalted (s.setFrame v (some f')) :=
  fun w member => ⟨inside_set here same (all w member).1, (all w member).2⟩

section
variable (inv : Inv s)
include inv

theorem inv_set (here : s.frame v = some f) (halted : Finset Nat)
    (others : ∀ w ≠ v, w ∈ halted → w ∈ s.haltedCpus) (same : f'.intrDisabled = f.intrDisabled)
    (marked : v ∈ halted → f'.vcpuHalted = true ∧ f'.intrDisabled = true ∧ f'.pc.locked = true)
    (early : f'.pc.early = true → f'.vmHalted = false)
    (deciding : f'.deciding = true → AllHalted s) :
    Inv ({ s with haltedCpus := halted }.setFrame v (some f')) := by
  constructor
  · intro w g there early_
    by_cases same_ : w = v
    · subst same_
      cases (frame_self w _ _).symm.trans there
      exact early early_
    · exact inv.early w g ((frame_other same_ _ _).symm.trans there) early_
  · intro w member
    by_cases same_ : w = v
    · subst same_
      exact ⟨f', frame_self w _ _, marked member⟩
    · obtain ⟨g, there, rest⟩ := inv.halted w (others w same_ member)
      exact ⟨g, (frame_other same_ _ _).trans there, rest⟩
  · intro w g there decides
    have all : AllHalted s := by
      by_cases same_ : w = v
      · subst same_
        cases (frame_self w _ _).symm.trans there
        exact deciding decides
      · exact inv.decided w g ((frame_other same_ _ _).symm.trans there) decides
    exact @all_halted_set { s with haltedCpus := halted } v f f' here same all

theorem inv_goto (here : s.frame v = some f) {pc : Pc}
    (locked : v ∈ s.haltedCpus → pc.locked = true) (early : pc.early = true → f.vmHalted = false)
    (deciding : ({ f with pc := pc } : Frame).deciding = true → f.deciding = true) :
    Inv (s.goto v f pc) := by
  refine inv_set inv here s.haltedCpus (fun _ _ member => member) rfl (fun member => ?_) early
    fun decides => inv.decided v f here (deciding decides)
  obtain ⟨g, there, marked, disabled, -⟩ := inv.halted v member
  cases here.symm.trans there
  exact ⟨marked, disabled, locked member⟩

theorem inv_early (here : s.frame v = some f) (early : f.pc.early = true) {pc : Pc}
    (locked : pc.locked = true) : Inv (s.goto v f pc) := by
  have undecided := inv.early v f here early
  refine inv_goto inv here (fun _ => locked) (fun _ => undecided) fun decides => ?_
  cases pc with
  | request => cases locked
  | _ => simp [Frame.deciding, undecided] at decides

theorem inv_leave (clear : v ∉ s.haltedCpus) (quiet : LeavesQuietly s v) :
    Inv (s.setFrame v none) := by
  have before : ∀ w g, (s.setFrame v none).frame w = some g → w ≠ v ∧ s.frame w = some g := by
    intro w g there
    by_cases same : w = v
    · subst same
      cases (frame_self w _ s).symm.trans there
    · exact ⟨same, (frame_other same _ s).symm.trans there⟩
  constructor
  · intro w g there
    exact inv.early w g (before w g there).2
  · intro w member
    obtain ⟨g, there, rest⟩ := inv.halted w member
    have other : w ≠ v := fun same => clear (same ▸ member)
    exact ⟨g, (frame_other other _ s).trans there, rest⟩
  · intro w g there decides
    obtain ⟨other, stood⟩ := before w g there
    intro u member
    obtain ⟨⟨h, inside, disabled⟩, quiet_⟩ := inv.decided w g stood decides u member
    have stays : u ≠ v := by
      rintro rfl
      exact absurd decides (Bool.eq_false_iff.mp (quiet member w other g stood))
    exact ⟨⟨h, (frame_other stays _ s).trans inside, disabled⟩, quiet_⟩

theorem inv_outside {s' : Vm} (halted : s'.haltedCpus = s.haltedCpus) (frame : s'.frame = s.frame)
    (all : (∃ w, ¬ Undecided s w) → AllHalted s → AllHalted s') : Inv s' := by
  constructor
  · intro w g there
    rw [frame] at there
    exact inv.early w g there
  · intro w member
    rw [halted] at member
    rw [frame]
    exact inv.halted w member
  · intro w g there decides
    rw [frame] at there
    refine all ⟨w, fun undecided => ?_⟩ (inv.decided w g there decides)
    rw [undecided g there] at decides
    cases decides

theorem inv_suspend (how : SuspendHow) : Inv (vmSuspend how s) := by
  unfold vmSuspend
  split
  · exact inv_outside inv rfl rfl fun _ all => all
  · exact inv

theorem inv_enter (out : s.frame v = none) (clear : v ∉ s.haltedCpus) {intrDisabled : Bool} :
    Inv (s.setFrame v (some ⟨intrDisabled, false, false, .events⟩)) := by
  constructor
  · intro w g there _
    by_cases same : w = v
    · subst same
      cases (frame_self w _ s).symm.trans there
      rfl
    · exact inv.early w g ((frame_other same _ s).symm.trans there) ‹_›
  · intro w member
    obtain ⟨g, there, rest⟩ := inv.halted w member
    have other : w ≠ v := fun same => clear (same ▸ member)
    exact ⟨g, (frame_other other _ s).trans there, rest⟩
  · intro w g there decides
    by_cases same : w = v
    · subst same
      cases (frame_self w _ s).symm.trans there
      cases decides
    · intro u member
      obtain ⟨⟨h, inside, disabled⟩, quiet⟩ :=
        inv.decided w g ((frame_other same _ s).symm.trans there) decides u member
      have other : u ≠ v := by
        rintro rfl
        cases out.symm.trans inside
      exact ⟨⟨h, (frame_other other _ s).trans inside, disabled⟩, quiet⟩

theorem inv_hlt_turn (here : s.frame v = some f) {flag : Bool}
    (undisturbed : Undisturbed s (.go v flag)) : Inv (hltTurn v f flag s) := by
  have quiet := undisturbed f here
  have bit : v ∈ s.haltedCpus → f.vcpuHalted = true ∧ f.intrDisabled = true ∧
      f.pc.locked = true := by
    intro member
    obtain ⟨g, there, rest⟩ := inv.halted v member
    cases here.symm.trans there
    exact rest
  unfold hltTurn
  cases place : f.pc with
  | events | nmi | intr | debugged | sleep =>
    dsimp only
    split <;> exact inv_early inv here (by rw [place]; rfl) rfl
  | mark =>
    dsimp only
    split
    · exact inv_early inv here (by rw [place]; rfl) rfl
    · next disabled =>
      split
      · refine inv_set inv here (insert v s.haltedCpus)
          (fun w other member => Finset.mem_of_mem_insert_of_ne member other) rfl
          (fun _ => ⟨rfl, ?_, rfl⟩) (fun _ => inv.early v f here (by rw [place]; rfl))
          fun decides => ?_
        · exact Bool.not_eq_false _ ▸ disabled
        · simp [Frame.deciding] at decides
      · exact inv_early inv here (by rw [place]; rfl) rfl
  | compare =>
    rw [place] at quiet
    dsimp only at quiet ⊢
    split
    · next all =>
      refine inv_set inv here s.haltedCpus (fun _ _ member => member) rfl
        (fun member => ⟨(bit member).1, (bit member).2.1, rfl⟩) nofun
        fun _ w member => ⟨?_, quiet all w member⟩
      exact inv_inside inv (all ▸ member)
    · exact inv_early inv here (by rw [place]; rfl) rfl
  | check =>
    rw [place] at quiet
    dsimp only at quiet ⊢
    split
    · next failed =>
      obtain ⟨unmarked, quiet⟩ := quiet failed
      refine inv_leave inv (fun member => ?_) quiet
      rw [(bit member).1] at unmarked
      cases unmarked
    · exact inv_early inv here (by rw [place]; rfl) rfl
  | clear =>
    have same : ({ f with pc := .unlock } : Frame).deciding = f.deciding := by
      simp [Frame.deciding, place]
    dsimp only
    split
    · refine inv_set inv here (s.haltedCpus.erase v)
        (fun w _ member => Finset.mem_of_mem_erase member) rfl
        (fun member => absurd rfl (Finset.ne_of_mem_erase member)) nofun
        fun decides => inv.decided v f here (same ▸ decides)
    · next unmarked =>
      exact inv_goto inv here (fun member => absurd (bit member).1 unmarked)
        nofun fun decides => same ▸ decides
  | unlock =>
    have clear : v ∉ s.haltedCpus := by
      intro member
      have locked := (bit member).2.2
      rw [place] at locked
      cases locked
    dsimp only
    split
    · next decided =>
      refine inv_goto inv here (fun member => absurd member clear) nofun ?_
      simp [Frame.deciding, place, decided]
    · refine inv_goto inv here (fun member => absurd member clear) nofun ?_
      simp [Frame.deciding]
  | request =>
    have clear : v ∉ s.haltedCpus := by
      intro member
      have locked := (bit member).2.2
      rw [place] at locked
      cases locked
    have same : (vmSuspend .halt s).haltedCpus = s.haltedCpus ∧
        (vmSuspend .halt s).frame = s.frame := by
      unfold vmSuspend
      split <;> exact ⟨rfl, rfl⟩
    refine inv_goto (inv_suspend inv .halt) (same.2 ▸ here) (fun member => absurd (same.1 ▸ member) clear)
      nofun ?_
    simp [Frame.deciding]
  | ret =>
    rw [place] at quiet
    refine inv_leave inv (fun member => ?_) quiet
    have locked := (bit member).2.2
    rw [place] at locked
    cases locked

theorem inv_step {e : Step} (undisturbed : Undisturbed s e) : ∃ s', step s e = .ok s' ∧ Inv s' := by
  cases e with
  | hlt v intrDisabled =>
    unfold step
    dsimp only
    split
    · exact ⟨s, rfl, inv⟩
    · next out =>
      have clear : v ∉ s.haltedCpus := by
        intro member
        obtain ⟨g, there, -⟩ := inv.halted v member
        cases out.symm.trans there
      rw [if_neg clear]
      exact ⟨_, rfl, inv_enter inv out clear⟩
  | go v flag =>
    unfold step
    dsimp only
    split
    · next f here => exact ⟨_, rfl, inv_hlt_turn inv here undisturbed⟩
    · exact ⟨s, rfl, inv⟩
  | injectNmi v =>
    refine ⟨_, rfl, ?_⟩
    unfold vmInjectNmi
    split
    · refine inv_outside inv rfl rfl fun decided all w member => ⟨(all w member).1, ?_⟩
      rw [Finset.mem_insert, not_or]
      refine ⟨?_, (all w member).2⟩
      rintro rfl
      obtain ⟨u, decides⟩ := decided
      exact decides (undisturbed member u)
    · exact inv
  | nmiClear v =>
    unfold step
    dsimp only
    split
    · exact ⟨s, rfl, inv⟩
    · refine ⟨_, rfl, inv_outside inv rfl rfl fun _ all w member => ⟨(all w member).1, ?_⟩⟩
      exact fun pending => (all w member).2 (Finset.mem_of_mem_erase pending)
  | activate v =>
    refine ⟨_, rfl, ?_⟩
    unfold vmActivateCpu
    split
    · next new =>
      refine inv_outside inv rfl rfl fun decided _ => ?_
      obtain ⟨u, decides⟩ := decided
      exact absurd (undisturbed new.2 u) decides
    · exact inv
  | suspend how => exact ⟨_, rfl, inv_suspend inv how⟩
  | reinit =>
    refine ⟨_, rfl, ?_⟩
    unfold vmReinit
    split
    · exact inv_outside inv rfl rfl fun _ _ w never => absurd never (Finset.notMem_empty w)
    · exact inv
  | suspended v => exact ⟨_, rfl, inv_outside inv rfl rfl fun _ all => all⟩
  | debug v on => exact ⟨_, rfl, inv_outside inv rfl rfl fun _ all => all⟩
  | reqidle v on => exact ⟨_, rfl, inv_outside inv rfl rfl fun _ all => all⟩
  | rendezvous on => exact ⟨_, rfl, inv_outside inv rfl rfl fun _ all => all⟩

theorem inv_fine {e : Step} (undisturbed : Undisturbed s e) : TellsHalted s e := by
  obtain ⟨s', taken, inv'⟩ := inv_step inv undisturbed
  refine ⟨⟨s', taken, fun v member => inv_inside inv' member⟩, fun requests => ?_⟩
  cases e with
  | go v flag =>
    obtain ⟨f, here, place⟩ := requests
    exact inv.decided v f here (by simp [Frame.deciding, place])
  | _ => exact requests.elim

end

theorem inv_created (maxcpus : Nat) (enabled : Bool) : Inv (created maxcpus enabled) := by
  constructor
  · intro v f never
    cases never
  · intro v never
    exact absurd never (Finset.notMem_empty v)
  · intro v f never
    cases never

theorem halt_detected (maxcpus : Nat) (enabled : Bool) (steps : List Step)
    (undisturbed : AlongAttempts step Undisturbed (created maxcpus enabled) steps) :
    AlongAttempts step TellsHalted (created maxcpus enabled) steps := by
  refine @along_attempts_of_invariant Vm Step Fault step Inv Undisturbed TellsHalted ?_ ?_ steps _
    (inv_created maxcpus enabled) undisturbed
  · intro s e s' inv undisturbed taken
    obtain ⟨t, goes, inv'⟩ := inv_step inv undisturbed
    cases goes.symm.trans taken
    exact inv'
  · exact fun s e inv undisturbed => inv_fine inv undisturbed

/-- Both execute HLT and take turns: the first sleeps while the second finds them all halted, and
    wakes before the second has asked for the suspension. -/
def twoHalt : List Step :=
  [.activate 0, .activate 1, .hlt 0 true, .hlt 1 true, .go 0 false, .go 1 false, .go 1 false,
    .go 0 false, .go 0 false, .go 1 false, .go 0 false, .go 1 false, .go 0 false, .go 0 false,
    .go 1 false, .go 1 false, .go 0 false, .go 1 false, .go 1 false, .go 1 false, .go 0 false,
    .go 0 false, .go 1 false, .go 0 false, .go 0 false]

theorem halt_detected_two : AlongAttempts step TellsHalted (created 2 true) twoHalt := by
  refine halt_detected 2 true twoHalt ?_
  refine along_attempts_cons ?_ rfl (along_attempts_cons ?_ rfl
    (along_attempts_cons trivial rfl (along_attempts_cons trivial rfl ?_)))
  · intro _ w f never
    cases never
  · intro _ w f never
    cases never
  iterate 21
    refine along_attempts_cons ?_ rfl ?_
    rotate_left
  · trivial
  all_goals
    intro f here
    cases here
    try trivial
  · rintro - (_ | _ | w) other g there
    · cases there
      rfl
    · exact absurd rfl other
    · cases there
  · rintro - (_ | _ | w) other g there
    · exact absurd rfl other
    · cases there
    · cases there

def leavesHalted : List Step :=
  [.activate 0, .activate 1, .hlt 0 true, .go 0 false, .go 0 false, .go 0 false, .go 0 false,
    .go 0 false, .go 0 false, .go 0 true, .go 0 true]

theorem error_return_leaves_halted :
    ¬ AlongAttempts step TellsHalted (created 2 true) leavesHalted := by
  rintro ⟨-, -, -, -, -, -, -, -, -, -, ⟨⟨s, ran, inside⟩, -⟩, -⟩
  cases ran
  obtain ⟨f, here, -⟩ := inside 0 (by decide)
  cases here

example : attempts step (created 2 true) (leavesHalted ++ [.hlt 0 true]) = .error .alreadyHalted := by
  rfl
end Hlt
