import Bhyve.Gdb.Memory
import Bhyve.Lib.StepRuns

namespace Gdb
open Patches StepRuns List

section
variable {Dev : Type} (m : Machine Dev)

/-- Any packet here may come with any answers of the kernel. The current vCPU is set by other packets
    and by stops. -/
inductive Event where
  | readMem (k : Answers) (text : Text)
  | writeMem (k : Answers) (text : Text)
  | breakpoint (k : Answers) (text : Text)
  | cpuAdd (k : Answers) (vcpu : Nat)
  | close (k : Answers)
  | current (vcpu : Nat)

/-- The debug server, and beside it what the debugger or the image last gave each byte. -/
structure Session (Dev : Type) where
  s : State Dev
  given : Ram

def storesOf (k : Answers) (s : State Dev) (text : Text) : List (Addr × Byte) :=
  match memWriting m k s text with
  | .ok (some w) => w.stores
  | _ => []

def step (x : Session Dev) : Event → Except Fault (Session Dev)
  | .readMem k text => .ok { x with s := (gdbReadMem m k x.s text).1 }
  | .writeMem k text =>
      match gdbWriteMem m k x.s text with
      | .error fault => .error fault
      | .ok (s, _) => .ok ⟨s, storeAll x.given (storesOf m k x.s text)⟩
  | .breakpoint k text => .ok { x with s := (breakpointPacket m k x.s text).1 }
  | .cpuAdd k vcpu =>
      match gdbCpuAdd m k x.s vcpu with
      | .error fault => .error fault
      | .ok s => .ok { x with s := s }
  | .close k => .ok { x with s := removeAllSwBreakpoints m k x.s }
  | .current vcpu => .ok { x with s := { x.s with curVcpu := vcpu } }

def fresh (image : Ram) (dev : Dev) : Session Dev where
  s := ⟨image, dev, [], fun _ => false, fun _ => false, 0⟩
  given := image

/-- No breakpoint is seen where there is none, and exactly the breakpoints make vCPUs exit. -/
structure Transparent (x : Session Dev) : Prop where
  memory : ∀ gpa, (∀ bp ∈ x.s.breakpoints, bp.gpa ≠ gpa) → x.s.ram gpa = x.given gpa
  exits : ∀ v, x.s.vcpusActive v = true → (x.s.bptExit v = true ↔ x.s.breakpoints ≠ [])

def ReadsGiven (x : Session Dev) : Event → Prop
  | .readMem k text =>
      (gdbReadMem m k x.s text).2 =
        match memReading m k x.s text with
        | none => .error einval
        | some r => r.reply x.given
  | _ => True

def Accepts (k : Answers) (s : State Dev) : Prop := ∀ v ∈ activeMask m s, k.refuses v = false

def RefusesFirst (k : Answers) (s : State Dev) : Prop :=
  ∃ v ∈ (activeMask m s).head?, k.refuses v = true

def breakpointTarget (k : Answers) (s : State Dev) (text : Text) : Option (Addr × Bool) :=
  match parseBreakpoint text with
  | .error _ => none
  | .ok (gva, kind, insert) =>
      match swBreakpointGpa m k s gva kind with
      | .error _ => none
      | .ok gpa => some (gpa, insert)

/-- The first breakpoint is inserted, and the last one is removed, with the capability accepted. -/
def ExitsFollow (k : Answers) (s : State Dev) : Option (Addr × Bool) → Prop
  | none => True
  | some (_, true) => s.breakpoints = [] → Accepts m k s ∨ RefusesFirst m k s
  | some (gpa, false) => s.breakpoints.map Breakpoint.gpa = [gpa] → Accepts m k s

/-- What is read or written of a byte under a breakpoint is the byte that is saved, and no vCPU
    is left out when breakpoint exits are turned on or off. -/
def SeesSaved (x : Session Dev) : Event → Prop
  | .readMem k text =>
      ∀ r ∈ memReading m k x.s text, ∀ bp ∈ x.s.breakpoints, .ram bp.gpa ∈ r.cells →
        x.s.ram bp.gpa = bp.shadowInst
  | .writeMem k text =>
      ∀ stored ∈ storesOf m k x.s text, ∀ bp ∈ x.s.breakpoints, bp.gpa = stored.1 →
        stored.2 = bp.shadowInst
  | .breakpoint k text => ExitsFollow m k x.s (breakpointTarget m k x.s text)
  | .cpuAdd k vcpu => x.s.breakpoints ≠ [] → k.refuses vcpu = false
  | .close k => x.s.breakpoints ≠ [] → Accepts m k x.s
  | .current _ => True

structure Inv (x : Session Dev) : Prop where
  under : Patched Breakpoint.gpa Breakpoint.shadowInst x.given x.s.ram x.s.breakpoints
  mapped : ∀ bp ∈ x.s.breakpoints, m.mapGpa bp.gpa 1 = true
  inside : ∀ v, x.s.vcpusActive v = true → v < m.guestNcpus
  exits : ∀ v, x.s.bptExit v = true ↔ x.s.vcpusActive v = true ∧ x.s.breakpoints ≠ []

end

section
variable {Dev : Type} {m : Machine Dev} {k : Answers} {ram : Ram}

theorem writeRam_stores (todo : Nat) : ∀ {w w' : Writing Dev} {gpa : Addr},
    w.ram = storeAll ram w.stores → writeRam todo w gpa = .ok w' →
      w'.ram = storeAll ram w'.stores := by
  induction todo with
  | zero =>
    intro w w' gpa start done
    cases done
    exact start
  | succ todo ih =>
    intro w w' gpa start done
    rw [writeRam] at done
    split at done
    · cases done
    · refine ih ?_ done
      rw [storeAll_snoc, start]

theorem writeWords_ram (vcpu fuel : Nat) : ∀ (w : Writing Dev) (gpa : Addr) (todo : BitVec 64),
    (writeWords m vcpu fuel w gpa todo).ram = w.ram ∧
      (writeWords m vcpu fuel w gpa todo).stores = w.stores := by
  induction fuel with
  | zero => intro w gpa todo; exact ⟨rfl, rfl⟩
  | succ fuel ih =>
    intro w gpa todo
    rw [writeWords]
    split
    · exact ⟨rfl, rfl⟩
    · dsimp only
      split
      · exact ⟨rfl, rfl⟩
      · exact ih _ _ _

theorem writePages_stores (vcpu fuel : Nat) : ∀ {w w' : Writing Dev} {gva : Addr} {resid : Nat},
    w.ram = storeAll ram w.stores → writePages m k vcpu fuel w gva resid = .ok w' →
      w'.ram = storeAll ram w'.stores := by
  induction fuel with
  | zero =>
    intro w w' gva resid start done
    cases done
    exact start
  | succ fuel ih =>
    intro w w' gva resid start done
    rw [writePages] at done
    split at done
    · cases done
      exact start
    split at done
    · cases done
      exact start
    rename_i gpa _
    dsimp only at done
    split at done
    · split at done
      · cases done
      · rename_i w₁ page
        exact ih (writeRam_stores _ start page) done
    · obtain ⟨same, none⟩ := writeWords_ram (m := m) vcpu (2 ^ 64) w gpa
        (BitVec.ofNat 64 (onPage gpa resid))
      split at done
      · cases done
        rw [same, none]
        exact start
      · refine ih ?_ done
        rw [same, none]
        exact start

theorem memWriting_stores {s : State Dev} {text : Text} {w : Writing Dev}
    (done : memWriting m k s text = .ok (some w)) : w.ram = storeAll s.ram w.stores := by
  unfold memWriting at done
  split at done
  · cases done
  split at done
  · cases done
  split at done
  · cases done
  split at done
  · cases done
  · rename_i w' pages
    cases done
    exact writePages_stores _ _ rfl pages

end

section
variable {Dev : Type} {m : Machine Dev} {k : Answers} {s : State Dev}

theorem setCaps_accepted (enable : Bool) (mask : List Nat) : ∀ caps,
    (∀ v ∈ mask, k.refuses v = false) →
      setCaps k enable mask caps = (fun v => if v ∈ mask then enable else caps v, true) := by
  induction mask with
  | nil => intro caps _; simp [setCaps]
  | cons vcpu mask ih =>
    intro caps accepted
    rw [setCaps, accepted vcpu mem_cons_self, if_neg Bool.false_ne_true,
      ih _ fun v later => accepted v (mem_cons_of_mem vcpu later)]
    refine Prod.ext (funext fun v => ?_) rfl
    by_cases later : v ∈ mask
    · simp [later]
    · by_cases here : v = vcpu
      · simp [here]
      · simp [later, here]

theorem mem_activeMask (inside : ∀ v, s.vcpusActive v = true → v < m.guestNcpus) (v : Nat) :
    v ∈ activeMask m s ↔ s.vcpusActive v = true := by
  rw [activeMask, mem_filter, mem_range]
  exact and_iff_right_of_imp (inside v)

theorem caps_accepted (inside : ∀ v, s.vcpusActive v = true → v < m.guestNcpus)
    (accepts : Accepts m k s) (enable : Bool) : setBreakpointCaps m k s enable =
      ({ s with bptExit := fun v => if s.vcpusActive v then enable else s.bptExit v }, true) := by
  rw [setBreakpointCaps, setCaps_accepted enable _ _ accepts]
  simp only [mem_activeMask inside]

theorem caps_refused (refuses : RefusesFirst m k s) (enable : Bool) :
    setBreakpointCaps m k s enable = (s, false) := by
  obtain ⟨vcpu, first, refused⟩ := refuses
  obtain ⟨mask, shape⟩ : ∃ mask, activeMask m s = vcpu :: mask := by
    cases all : activeMask m s with
    | nil => simp [all] at first
    | cons v mask =>
      rw [all] at first
      exact ⟨mask, by rw [Option.some.inj first]⟩
  rw [setBreakpointCaps, shape, setCaps, refused, if_pos rfl]

end

section
variable {Dev : Type} {m : Machine Dev} {k : Answers} {x : Session Dev}

theorem transparent_of_inv (inv : Inv m x) : Transparent x where
  memory := inv.under.clear
  exits := by
    intro v active
    rw [inv.exits, active]
    exact and_iff_right rfl

theorem reads_given (inv : Inv m x) (e : Event) (fine : SeesSaved m x e) : ReadsGiven m x e := by
  cases e with
  | readMem k text =>
    simp only [ReadsGiven, gdbReadMem]
    cases read : memReading m k x.s text with
    | none => rfl
    | some r =>
      have same : r.cells.map (·.byte x.s.ram) = r.cells.map (·.byte x.given) := by
        apply map_congr_left
        rintro (gpa | byte) member
        · show x.s.ram gpa = x.given gpa
          by_cases hidden : ∃ bp ∈ x.s.breakpoints, bp.gpa = gpa
          · obtain ⟨bp, inserted, rfl⟩ := hidden
            rw [fine r read bp inserted member]
            exact inv.under.kept bp inserted
          · push Not at hidden
            exact inv.under.clear gpa hidden
        · rfl
      dsimp only
      rw [Reading.reply, Reading.reply, same]
  | _ => trivial

theorem write_inv (inv : Inv m x) {text : Text} (fine : SeesSaved m x (.writeMem k text))
    {s : State Dev} {reply : Reply} (done : gdbWriteMem m k x.s text = .ok (s, reply)) :
    Inv m ⟨s, storeAll x.given (storesOf m k x.s text)⟩ := by
  change ∀ stored ∈ storesOf m k x.s text, ∀ bp ∈ x.s.breakpoints, _ at fine
  unfold gdbWriteMem at done
  unfold storesOf at fine ⊢
  rcases written : memWriting m k x.s text with fault | _ | w
  · rw [written] at done
    cases done
  · rw [written] at done
    cases done
    exact inv
  · rw [written] at done fine
    cases done
    refine ⟨?_, inv.mapped, inv.inside, inv.exits⟩
    rw [memWriting_stores written]
    exact store_under inv.under fine

variable {gpa : Addr} {bp : Breakpoint}

theorem find_none (missing : findBreakpoint x.s gpa = none) :
    ∀ bp ∈ x.s.breakpoints, bp.gpa ≠ gpa := by
  intro bp member same
  have := List.find?_eq_none.mp missing bp member
  simp [same] at this

theorem find_some (found : findBreakpoint x.s gpa = some bp) :
    bp ∈ x.s.breakpoints ∧ bp.gpa = gpa := by
  refine ⟨mem_of_find?_eq_some found, ?_⟩
  have := find?_some found
  simpa using this

theorem off_when_empty (inv : Inv m x) (empty : x.s.breakpoints = []) (v : Nat) :
    x.s.bptExit v = false := by
  rw [Bool.eq_false_iff]
  intro on
  exact ((inv.exits v).mp on).2 empty

theorem insert_inv (inv : Inv m x) (mapped : m.mapGpa gpa 1 = true)
    (missing : findBreakpoint x.s gpa = none) {caps : Nat → Bool}
    (exits : ∀ v, caps v = true ↔ x.s.vcpusActive v = true) :
    Inv m ⟨{ x.s with
      bptExit := caps
      ram := Function.update x.s.ram gpa 0xcc
      breakpoints := x.s.breakpoints ++ [⟨gpa, x.s.ram gpa⟩] }, x.given⟩ where
  under := @patch _ _ _ _ Breakpoint.gpa Breakpoint.shadowInst _ _ _ inv.under ⟨gpa, x.s.ram gpa⟩
    (find_none missing) rfl 0xcc
  mapped := by
    intro bp member
    rcases List.mem_append.mp member with old | new
    · exact inv.mapped bp old
    · rw [List.mem_singleton.mp new]
      exact mapped
  inside := inv.inside
  exits := by
    intro v
    rw [exits v]
    exact (and_iff_left (by simp)).symm

theorem remove_inv (inv : Inv m x) (found : findBreakpoint x.s gpa = some bp) {caps : Nat → Bool}
    (exits : ∀ v, caps v = true ↔ x.s.vcpusActive v = true ∧ x.s.breakpoints.eraseP (fun bp => bp.gpa = gpa) ≠ []) :
    Inv m ⟨{ x.s with
      bptExit := caps
      ram := Function.update x.s.ram gpa bp.shadowInst
      breakpoints := x.s.breakpoints.eraseP fun bp => bp.gpa = gpa }, x.given⟩ := by
  obtain ⟨member, rfl⟩ := find_some found
  refine ⟨unpatch inv.under member, ?_, inv.inside, exits⟩
  intro other still
  exact inv.mapped other (mem_of_mem_eraseP still)

theorem erased_last (found : findBreakpoint x.s gpa = some bp)
    (empty : x.s.breakpoints.eraseP (fun bp => bp.gpa = gpa) = []) :
    x.s.breakpoints.map Breakpoint.gpa = [gpa] := by
  obtain ⟨member, rfl⟩ := find_some found
  have length := length_eraseP_of_mem member (p := fun other => other.gpa = bp.gpa) (by simp)
  rw [empty, length_nil] at length
  obtain ⟨only, single⟩ := List.length_eq_one_iff.mp
    (show x.s.breakpoints.length = 1 by have := length_pos_of_mem member; omega)
  rw [single] at member ⊢
  rw [List.mem_singleton.mp member]
  rfl

theorem update_inv (inv : Inv m x) {gva : Addr} {kind : BitVec 32} {insert : Bool}
    (fine : ∀ gpa, swBreakpointGpa m k x.s gva kind = .ok gpa →
      ExitsFollow m k x.s (some (gpa, insert))) :
    Inv m ⟨(updateSwBreakpoint m k x.s gva kind insert).1, x.given⟩ := by
  unfold updateSwBreakpoint
  cases checked : swBreakpointGpa m k x.s gva kind with
  | error reply => exact inv
  | ok gpa =>
    have follow := fine gpa checked
    have mapped : m.mapGpa gpa 1 = true := by
      unfold swBreakpointGpa at checked
      split at checked
      · cases checked
      split at checked
      · cases checked
      split at checked
      · rename_i mapped
        cases checked
        exact mapped
      · cases checked
    dsimp only
    cases found : findBreakpoint x.s gpa with
    | none =>
      cases insert with
      | false => exact inv
      | true =>
        by_cases empty : x.s.breakpoints = []
        · simp only [if_true, if_pos empty]
          rcases follow empty with accepts | refuses
          · rw [caps_accepted inv.inside accepts]
            refine insert_inv inv mapped found fun v => ?_
            simp [off_when_empty inv empty v]
          · rw [caps_refused refuses]
            exact inv
        · simp only [if_true, if_neg empty]
          refine insert_inv inv mapped found fun v => ?_
          rw [inv.exits v]
          exact and_iff_left empty
    | some bp =>
      cases insert with
      | true => exact inv
      | false =>
        simp only [Bool.false_eq_true, if_false]
        by_cases last : x.s.breakpoints.eraseP (fun bp => bp.gpa = gpa) = []
        · rw [if_pos last, caps_accepted (s := { x.s with
            ram := Function.update x.s.ram gpa bp.shadowInst
            breakpoints := x.s.breakpoints.eraseP fun bp => bp.gpa = gpa }) inv.inside
            (follow (erased_last found last))]
          refine remove_inv inv found fun v => ?_
          have off := inv.exits v
          cases active : x.s.vcpusActive v with
          | true => simp [last]
          | false => simpa [active] using off
        · rw [if_neg last]
          refine remove_inv inv found fun v => ?_
          rw [inv.exits v]
          refine and_congr_right fun _ => ?_
          exact iff_of_true (ne_nil_of_mem (find_some found).1) last

theorem breakpoint_inv (inv : Inv m x) {text : Text} (fine : SeesSaved m x (.breakpoint k text)) :
    Inv m ⟨(breakpointPacket m k x.s text).1, x.given⟩ := by
  change ExitsFollow m k x.s (breakpointTarget m k x.s text) at fine
  unfold breakpointTarget at fine
  unfold breakpointPacket
  rcases parsed : parseBreakpoint text with reply | ⟨gva, kind, insert⟩
  · exact inv
  · rw [parsed] at fine
    refine update_inv inv fun gpa checked => ?_
    simp only [checked] at fine
    exact fine

theorem close_inv (inv : Inv m x) (fine : x.s.breakpoints ≠ [] → Accepts m k x.s) :
    Inv m ⟨removeAllSwBreakpoints m k x.s, x.given⟩ := by
  unfold removeAllSwBreakpoints
  by_cases empty : x.s.breakpoints = []
  · rw [if_pos empty]
    exact inv
  · rw [if_neg empty, restoreAll_eq _ inv.under,
      @caps_accepted _ m k { x.s with ram := x.given, breakpoints := [] } inv.inside (fine empty)]
    refine ⟨patched_nil x.given, fun _ none => (nomatch none), inv.inside, fun v => ?_⟩
    have off := inv.exits v
    cases active : x.s.vcpusActive v with
    | true => simp [active]
    | false => simpa [active] using off

theorem add_inv (inv : Inv m x) {vcpu : Nat} (fine : x.s.breakpoints ≠ [] → k.refuses vcpu = false)
    {s : State Dev} (done : gdbCpuAdd m k x.s vcpu = .ok s) : Inv m ⟨s, x.given⟩ := by
  unfold gdbCpuAdd at done
  by_cases inside : vcpu < m.guestNcpus
  · rw [if_pos inside] at done
    cases done
    refine ⟨inv.under, inv.mapped, fun v active => ?_, fun v => ?_⟩
    · by_cases same : v = vcpu
      · rw [same]
        exact inside
      · exact inv.inside v (by simpa [Function.update_of_ne same] using active)
    · by_cases empty : x.s.breakpoints = []
      · simp [empty, off_when_empty inv empty v]
      · have accepted := fine empty
        by_cases same : v = vcpu
        · simp [same, empty, accepted]
        · simp [empty, accepted, Function.update_of_ne same, inv.exits v]
  · rw [if_neg inside] at done
    cases done

theorem step_inv (inv : Inv m x) {e : Event} (fine : SeesSaved m x e) {x' : Session Dev}
    (done : step m x e = .ok x') : Inv m x' := by
  cases e with
  | readMem k text =>
    cases done
    unfold gdbReadMem
    cases memReading m k x.s text <;> exact ⟨inv.under, inv.mapped, inv.inside, inv.exits⟩
  | writeMem k text =>
    simp only [step] at done
    rcases written : gdbWriteMem m k x.s text with fault | ⟨s, reply⟩
    · rw [written] at done
      cases done
    · rw [written] at done
      cases done
      exact write_inv inv fine written
  | breakpoint k text =>
    cases done
    exact breakpoint_inv inv fine
  | cpuAdd k vcpu =>
    simp only [step] at done
    cases added : gdbCpuAdd m k x.s vcpu with
    | error fault =>
      rw [added] at done
      cases done
    | ok s =>
      rw [added] at done
      cases done
      exact add_inv inv fine added
  | close k =>
    cases done
    exact close_inv inv fine
  | current vcpu =>
    cases done
    exact ⟨inv.under, inv.mapped, inv.inside, inv.exits⟩

theorem fresh_inv (image : Ram) (dev : Dev) : Inv m (fresh image dev) where
  under := patched_nil image
  mapped := fun _ none => (nomatch none)
  inside := by simp [fresh]
  exits := by simp [fresh]

end

section
variable {Dev : Type}

instance (m : Machine Dev) (k : Answers) (s : State Dev) : Decidable (Accepts m k s) :=
  inferInstanceAs (Decidable (∀ v ∈ activeMask m s, k.refuses v = false))

instance (m : Machine Dev) (k : Answers) (s : State Dev) : Decidable (RefusesFirst m k s) :=
  inferInstanceAs (Decidable (∃ v ∈ (activeMask m s).head?, k.refuses v = true))

instance (m : Machine Dev) (k : Answers) (s : State Dev) :
    ∀ target, Decidable (ExitsFollow m k s target)
  | none => .isTrue trivial
  | some (_, true) =>
      inferInstanceAs (Decidable (_ → Accepts m k s ∨ RefusesFirst m k s))
  | some (_, false) =>
      inferInstanceAs (Decidable (_ → Accepts m k s))

instance (m : Machine Dev) (x : Session Dev) : ∀ e, Decidable (SeesSaved m x e)
  | .readMem k text =>
      inferInstanceAs (Decidable (∀ r ∈ memReading m k x.s text, ∀ bp ∈ x.s.breakpoints, _ → _))
  -- through the list of stores, not through all addresses
  | .writeMem k text =>
      List.decidableBAll (fun stored : Addr × Byte => ∀ bp ∈ x.s.breakpoints,
        bp.gpa = stored.1 → stored.2 = bp.shadowInst) (storesOf m k x.s text)
  | .breakpoint k _ =>
      inferInstanceAs (Decidable (ExitsFollow m k x.s _))
  | .cpuAdd _ _ =>
      inferInstanceAs (Decidable (_ → _ = _))
  | .close k => inferInstanceAs (Decidable (x.s.breakpoints ≠ [] → Accepts m k x.s))
  | .current _ => .isTrue trivial

/-- In a run of packets, new vCPUs and closed connections whose steps are all fine, memory is read as
    it was given, and no state shows more of the breakpoints than the vCPUs that exit at them. -/
theorem breakpoints_transparent (m : Machine Dev) (image : Ram) (dev : Dev) (events : List Event)
    (fine : AlongAttempts (step m) (SeesSaved m) (fresh image dev) events) : AlongAttempts (step m)
      (fun x e => Transparent x ∧ ReadsGiven m x e ∧ ∀ x', step m x e = .ok x' → Transparent x')
      (fresh image dev) events := by
  refine along_attempts_of_invariant ?_ ?_ events _ (fresh_inv (m := m) image dev) fine
  · intro x e x' inv fine done
    exact step_inv inv fine done
  · intro x e inv fine
    refine ⟨transparent_of_inv inv, reads_given inv e fine, ?_⟩
    intro x' done
    exact transparent_of_inv (step_inv inv fine done)

def small : Machine Unit where
  guestNcpus := 2
  mapGpa gpa n := decide (gpa.toNat + n ≤ 0x10000)
  gla2gpa _ _ _ vaddr := .ok (if vaddr.toNat < 0x10000 then some vaddr else none)
  readMem _ _ _ _ := (none, ())
  writeMem _ _ _ _ _ := (false, ())

def answers (limit : Nat) : Answers where
  registers _ := .ok ⟨1, 0, 0, 0⟩
  refuses v := decide (limit ≤ v)

def insertAt1000 : Text := .of [0x5a, 0x30, 0x2c, 0x31, 0x30, 0x30, 0x30, 0x2c, 0x31]
def removeAt1000 : Text := .of [0x7a, 0x30, 0x2c, 0x31, 0x30, 0x30, 0x30, 0x2c, 0x31]

def readAt1000 : Text := .of [0x6d, 0x31, 0x30, 0x30, 0x30, 0x2c, 0x31]
def writeAt1000 : Text :=
  .of [0x4d, 0x31, 0x30, 0x30, 0x30, 0x2c, 0x31, 0x3a, 0x39, 0x30]

theorem breakpoints_transparent_small : AlongAttempts (step small)
    (fun x e => Transparent x ∧ ReadsGiven small x e ∧
      ∀ x', step small x e = .ok x' → Transparent x')
    (fresh (fun _ => 0x55) ())
    [.cpuAdd (answers 2) 0, .breakpoint (answers 2) insertAt1000, .cpuAdd (answers 2) 1,
      .breakpoint (answers 2) removeAt1000, .readMem (answers 2) readAt1000,
      .writeMem (answers 2) writeAt1000, .breakpoint (answers 2) insertAt1000,
      .close (answers 2)] :=
  breakpoints_transparent _ _ _ _ (by decide +kernel)

theorem breakpoints_seen : (∃ x, attempts (step small) (fresh (fun _ => 0x55) ())
        [.breakpoint (answers 2) insertAt1000] = .ok x ∧
      ¬ ReadsGiven small x (.readMem (answers 2) readAt1000)) ∧
    (∃ x, attempts (step small) (fresh (fun _ => 0x55) ())
        [.breakpoint (answers 2) insertAt1000, .writeMem (answers 2) writeAt1000,
          .breakpoint (answers 2) removeAt1000] = .ok x ∧ ¬ Transparent x) ∧
    ∃ x, attempts (step small) (fresh (fun _ => 0x55) ())
        [.cpuAdd (answers 2) 0, .cpuAdd (answers 2) 1, .breakpoint (answers 1) insertAt1000] = .ok x ∧
      ¬ Transparent x := by
  refine ⟨⟨_, rfl, ?_⟩, ⟨_, rfl, fun clear => ?_⟩, ⟨_, rfl, fun clear => ?_⟩⟩
  · unfold ReadsGiven
    decide +kernel
  · exact absurd (clear.memory 0x1000 (by decide +kernel)) (by decide +kernel)
  · exact absurd ((clear.exits 0 (by decide +kernel)).mp (by decide +kernel)) (by decide +kernel)

end
end Gdb
