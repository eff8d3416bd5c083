import Mathlib.Algebra.Group.Nat.Defs
import Bhyve.Lib.Extents
import Bhyve.Lib.StepRuns

/-!
The registry of memory ranges of mem.c: two trees of ranges, and for each vcpu a hint at the range
that it has used last. A tree is the list of its ranges, in which a search finds one that compares
equal. An allocation succeeds, and the pointer to it is a number that no other one has had. The
lock makes each call one step.
-/
namespace MmioRegistry
open Extents StepRuns List

section

structure Span where
  base : BitVec 64
  last : BitVec 64

def mmioRbRangeCompare (a b : Span) : Int :=
  if a.last < b.base then -1 else if b.last < a.base then 1 else 0

/-- A range of callers is not empty, and does not go round the end of the address space. N are the
    names, H the handlers with their arguments. -/
structure MemRange (N H : Type) where
  name : N
  base : BitVec 64
  size : BitVec 64
  immutable : Bool
  handler : H
  some_byte : 0 < size.toNat
  fits : base.toNat + size.toNat ≤ 2 ^ 64

structure MmioRbRange (N H : Type) where
  pointer : Nat
  param : MemRange N H

variable {N H : Type}

def MmioRbRange.span (r : MmioRbRange N H) : Span :=
  ⟨r.param.base, r.param.base + r.param.size - 1⟩

abbrev Tree (N H : Type) := List (MmioRbRange N H)

def rbFind (tree : Tree N H) (find : Span) : Option (MmioRbRange N H) :=
  tree.find? fun r => mmioRbRangeCompare find r.span == 0

def mmioRbLookup (tree : Tree N H) (addr : BitVec 64) : Option (MmioRbRange N H) :=
  rbFind tree ⟨addr, addr⟩

def eexist : Nat := 17
def enoent : Nat := 2

def mmioRbAdd (tree : Tree N H) (new : MmioRbRange N H) : Tree N H × Nat :=
  match rbFind tree new.span with
  | some _ => (tree, eexist)
  | none => (new :: tree, 0)

end

section
variable {N H : Type} {cpus : Nat}

inductive WhichTree where
  | root
  | fallback
  deriving DecidableEq

structure Registry (N H : Type) (cpus : Nat) where
  root : Tree N H
  fallback : Tree N H
  hint : Fin cpus → Option (MmioRbRange N H)
  next : Nat

def initMem : Registry N H cpus := ⟨[], [], fun _ => none, 0⟩

variable (s : Registry N H cpus)

def Registry.tree : WhichTree → Tree N H
  | .root => s.root
  | .fallback => s.fallback

def Registry.setTree (which : WhichTree) (tree : Tree N H) :
    Registry N H cpus :=
  match which with
  | .root => { s with root := tree }
  | .fallback => { s with fallback := tree }

def newRange (memp : MemRange N H) : MmioRbRange N H := ⟨s.next, memp⟩

/-- A base inside a range of the tree leaves err at 0, and the new range out. -/
def registerMemInt (which : WhichTree) (memp : MemRange N H) (s : Registry N H cpus) :
    Registry N H cpus × Nat :=
  let mrp := newRange s memp
  let s := { s with next := s.next + 1 }
  match mmioRbLookup (s.tree which) memp.base with
  | some _ => (s, 0)
  | none =>
      let added := mmioRbAdd (s.tree which) mrp
      (s.setTree which added.1, added.2)

def unregisterMem [DecidableEq N] (memp : MemRange N H) (s : Registry N H cpus) :
    Option (Registry N H cpus × Nat) :=
  match mmioRbLookup s.root memp.base with
  | none => some (s, enoent)
  | some entry =>
      if entry.param.name = memp.name ∧
          (entry.param.base = memp.base ∧ entry.param.size = memp.size) ∧
          entry.param.immutable = false then
        some ({ s with
          root := (s.root.filter fun r => r.pointer ≠ entry.pointer)
          hint := fun i =>
            match s.hint i with
            | some held => if held.pointer = entry.pointer then none else some held
            | none => none }, 0)
      else none

def accessMemory (vcpu : Fin cpus) (paddr : BitVec 64) (s : Registry N H cpus) :
    Registry N H cpus × Option (MmioRbRange N H) :=
  let hinted := (s.hint vcpu).filter fun held =>
    decide (held.span.base ≤ paddr ∧ paddr ≤ held.span.last)
  match hinted with
  | some entry => (s, some entry)
  | none =>
      match mmioRbLookup s.root paddr with
      | some entry => ({ s with hint := Function.update s.hint vcpu (some entry) }, some entry)
      | none => (s, mmioRbLookup s.fallback paddr)

def plainLookup (paddr : BitVec 64) : Option (MmioRbRange N H) :=
  (mmioRbLookup s.root paddr).or (mmioRbLookup s.fallback paddr)

inductive Call (N H : Type) (cpus : Nat) where
  | register (which : WhichTree) (memp : MemRange N H)
  | unregister (memp : MemRange N H)
  | access (vcpu : Fin cpus) (paddr : BitVec 64)

inductive Fault where
  | assertion

def step [DecidableEq N] (s : Registry N H cpus) : Call N H cpus → Except Fault (Registry N H cpus)
  | .register which memp => .ok (registerMemInt which memp s).1
  | .unregister memp =>
      match unregisterMem memp s with
      | some done => .ok done.1
      | none => .error .assertion
  | .access vcpu paddr => .ok (accessMemory vcpu paddr s).1

end

section
variable {N H : Type} {cpus : Nat}

def MemRange.extent (m : MemRange N H) : Extent := ⟨m.base.toNat, m.size.toNat⟩

def MmioRbRange.extent (r : MmioRbRange N H) : Extent := r.param.extent

/-- The ranges of a tree are not empty, and no two of them have an address in common. -/
def Disjoint (tree : Tree N H) : Prop := Spread MmioRbRange.extent {r | r ∈ tree}

def Overlaps (tree : Tree N H) (memp : MemRange N H) : Prop :=
  ∃ r ∈ tree, ∃ x, memp.extent.Has x ∧ r.extent.Has x

/-- The calls for an address go to the range. A range of the fallback tree gets those which the
    main tree has no range for. -/
def Dispatched (s : Registry N H cpus) (r : MmioRbRange N H) (addr : BitVec 64) :
    WhichTree → Prop
  | .root => ∀ vcpu, (accessMemory vcpu addr s).2 = some r
  | .fallback => mmioRbLookup s.fallback addr = some r ∧
      (mmioRbLookup s.root addr = none → ∀ vcpu, (accessMemory vcpu addr s).2 = some r)

structure RegisterRight (s : Registry N H cpus) (which : WhichTree) (memp : MemRange N H) :
    Prop where
  dispatched : (registerMemInt which memp s).2 = 0 → ∀ addr, memp.extent.Has addr.toNat →
    Dispatched (registerMemInt which memp s).1 (newRange s memp) addr which
  unchanged : (registerMemInt which memp s).2 ≠ 0 → ∀ other,
    (registerMemInt which memp s).1.tree other = s.tree other
  refused : (registerMemInt which memp s).2 ≠ 0 ↔ Overlaps (s.tree which) memp

def CallRight [DecidableEq N] (s : Registry N H cpus) (call : Call N H cpus) : Prop :=
  (∀ s', step s call = .ok s' → ∀ which, Disjoint (s'.tree which)) ∧
    match call with
    | .register which memp => RegisterRight s which memp
    | .unregister _ => True
    | .access vcpu paddr => (accessMemory vcpu paddr s).2 = plainLookup s paddr

def BaseFree (s : Registry N H cpus) : Call N H cpus → Prop
  | .register which memp => ∀ r ∈ s.tree which, ¬r.extent.Has memp.base.toNat
  | _ => True

/-- The trees are disjoint, and a hint is at a range that is in the main tree. -/
structure Inv (s : Registry N H cpus) : Prop where
  disjoint : ∀ which, Disjoint (s.tree which)
  hint : ∀ vcpu r, s.hint vcpu = some r → r ∈ s.root

end

section
variable {N H : Type}

theorem compare_eq_zero_iff (a b : Span) : (mmioRbRangeCompare a b == 0) = true ↔
      b.base.toNat ≤ a.last.toNat ∧ a.base.toNat ≤ b.last.toNat := by
  simp only [mmioRbRangeCompare, BitVec.lt_def]
  split
  · rename_i before
    simp only [beq_iff_eq, reduceCtorEq, false_iff]
    omega
  · split
    · rename_i after
      have apart : (1 : Int) ≠ 0 := by decide
      simp only [beq_iff_eq, apart, false_iff]
      omega
    · simp only [beq_self_eq_true, true_iff]
      omega

theorem last_to_nat (r : MmioRbRange N H) :
    r.span.last.toNat + 1 = r.param.base.toNat + r.param.size.toNat := by
  have some_byte := r.param.some_byte
  have fits := r.param.fits
  have base := r.param.base.isLt
  simp only [MmioRbRange.span, BitVec.toNat_sub, BitVec.toNat_add]
  simp
  omega

theorem covers_iff (r : MmioRbRange N H) (addr : BitVec 64) :
    (mmioRbRangeCompare ⟨addr, addr⟩ r.span == 0) = true ↔ r.extent.Has addr.toNat := by
  have last := last_to_nat r
  rw [compare_eq_zero_iff]
  simp only [MmioRbRange.extent, MemRange.extent, Extent.Has]
  have base : r.span.base = r.param.base := rfl
  rw [base]
  omega

theorem meets_iff (r t : MmioRbRange N H) :
    (mmioRbRangeCompare r.span t.span == 0) = true ↔ ∃ x, r.extent.Has x ∧ t.extent.Has x := by
  have last := last_to_nat r
  have last' := last_to_nat t
  have base : r.span.base = r.param.base := rfl
  have base' : t.span.base = t.param.base := rfl
  have filled := r.param.some_byte
  have filled' := t.param.some_byte
  rw [compare_eq_zero_iff, base, base']
  simp only [MmioRbRange.extent, MemRange.extent, Extent.Has]
  constructor
  · intro meet
    exact ⟨max r.param.base.toNat t.param.base.toNat, by omega, by omega⟩
  · rintro ⟨x, here, there⟩
    omega

theorem lookup_iff {tree : Tree N H} (disjoint : Disjoint tree) (addr : BitVec 64)
    (r : MmioRbRange N H) : mmioRbLookup tree addr = some r ↔ r ∈ tree ∧ r.extent.Has addr.toNat :=
  find_has disjoint (fun _ => Iff.rfl) fun r _ => covers_iff r addr

theorem lookup_none_iff (tree : Tree N H) (addr : BitVec 64) :
    mmioRbLookup tree addr = none ↔ ∀ r ∈ tree, ¬r.extent.Has addr.toNat := by
  rw [mmioRbLookup, rbFind, find?_eq_none]
  simp only [covers_iff]

theorem add_cases (tree : Tree N H) (new : MmioRbRange N H) :
    (Overlaps tree new.param ∧ mmioRbAdd tree new = (tree, eexist)) ∨
      (¬Overlaps tree new.param ∧ mmioRbAdd tree new = (new :: tree, 0)) := by
  unfold mmioRbAdd
  cases found : rbFind tree new.span with
  | some r =>
    have member := mem_of_find?_eq_some found
    have meets := (meets_iff new r).mp
      (find?_some (p := fun t : MmioRbRange N H => mmioRbRangeCompare new.span t.span == 0) found)
    exact .inl ⟨⟨r, member, meets⟩, rfl⟩
  | none =>
    refine .inr ⟨?_, rfl⟩
    rintro ⟨r, member, meets⟩
    exact List.find?_eq_none.mp found r member ((meets_iff new r).mpr meets)

theorem apart_of_free {tree : Tree N H} {new : MmioRbRange N H} (free : ¬Overlaps tree new.param) :
    ∀ r ∈ tree, new.extent.Apart r.extent := by
  intro r member
  have filled := new.param.some_byte
  have filled' := r.param.some_byte
  by_contra meets
  refine free ⟨r, member, max new.param.base.toNat r.param.base.toNat, ?_⟩
  simp only [Extent.Apart, Extent.Has, MmioRbRange.extent, MemRange.extent] at *
  omega

theorem disjoint_add {tree : Tree N H} {new : MmioRbRange N H} (disjoint : Disjoint tree)
    (free : ¬Overlaps tree new.param) : Disjoint (new :: tree) := by
  have inserted := spread_insert disjoint new.param.some_byte (apart_of_free free)
  refine spread_subset inserted ?_
  intro r member
  rcases List.mem_cons.mp member with rfl | old
  · exact .inl rfl
  · exact .inr old

end

section
variable {N H : Type} {cpus : Nat} {s : Registry N H cpus}

theorem access_plain (inv : Inv s) (vcpu : Fin cpus) (paddr : BitVec 64) :
    (accessMemory vcpu paddr s).2 = plainLookup s paddr := by
  have root : Disjoint s.root := inv.disjoint .root
  unfold accessMemory plainLookup
  dsimp only
  cases hinted : (s.hint vcpu).filter fun held =>
      decide (held.span.base ≤ paddr ∧ paddr ≤ held.span.last) with
  | some entry =>
    obtain ⟨held, inside⟩ := Option.filter_eq_some_iff.mp hinted
    rw [decide_eq_true_eq, BitVec.le_def, BitVec.le_def] at inside
    have last := last_to_nat entry
    have covers : entry.extent.Has paddr.toNat := by
      have base : entry.span.base = entry.param.base := rfl
      rw [base] at inside
      simp only [MmioRbRange.extent, MemRange.extent, Extent.Has]
      omega
    rw [(lookup_iff root paddr entry).mpr ⟨inv.hint vcpu entry held, covers⟩]
    rfl
  | none =>
    dsimp only
    cases mmioRbLookup s.root paddr with
    | some entry => rfl
    | none => rfl

theorem access_inv (inv : Inv s) (vcpu : Fin cpus) (paddr : BitVec 64) :
    Inv (accessMemory vcpu paddr s).1 := by
  unfold accessMemory
  dsimp only
  split
  · exact inv
  · cases found : mmioRbLookup s.root paddr with
    | none => exact inv
    | some entry =>
      refine ⟨inv.disjoint, ?_⟩
      intro other r held
      dsimp only at held
      by_cases same : other = vcpu
      · rw [same, Function.update_self] at held
        cases held
        exact mem_of_find?_eq_some found
      · rw [Function.update_of_ne same] at held
        exact inv.hint other r held

@[simp] theorem next_tree (s : Registry N H cpus) (which : WhichTree) :
    ({ s with next := s.next + 1 } : Registry N H cpus).tree which = s.tree which := by
  cases which <;> rfl

@[simp] theorem set_tree_same (s : Registry N H cpus) (which : WhichTree) (tree : Tree N H) :
    (s.setTree which tree).tree which = tree := by
  cases which <;> rfl

theorem set_tree_other (s : Registry N H cpus) {which other : WhichTree} (differs : other ≠ which)
    (tree : Tree N H) : (s.setTree which tree).tree other = s.tree other := by
  cases which <;> cases other <;> first | rfl | exact absurd rfl differs

@[simp] theorem set_tree_hint (s : Registry N H cpus) (which : WhichTree) (tree : Tree N H) :
    (s.setTree which tree).hint = s.hint := by
  cases which <;> rfl

theorem register_cases (which : WhichTree) (memp : MemRange N H) (s : Registry N H cpus) :
    ((∃ r ∈ s.tree which, r.extent.Has memp.base.toNat) ∧
        registerMemInt which memp s = ({ s with next := s.next + 1 }, 0)) ∨
      (BaseFree s (.register which memp) ∧ Overlaps (s.tree which) memp ∧
        registerMemInt which memp s =
          (({ s with next := s.next + 1 } : Registry N H cpus).setTree which (s.tree which),
            eexist)) ∨
      (BaseFree s (.register which memp) ∧ ¬Overlaps (s.tree which) memp ∧
        registerMemInt which memp s =
          (({ s with next := s.next + 1 } : Registry N H cpus).setTree which
            (newRange s memp :: s.tree which), 0)) := by
  unfold registerMemInt
  dsimp only
  rw [next_tree]
  cases found : mmioRbLookup (s.tree which) memp.base with
  | some r =>
    have covers := (covers_iff r memp.base).mp
      (find?_some (p := fun t : MmioRbRange N H => mmioRbRangeCompare ⟨memp.base, memp.base⟩ t.span == 0) found)
    exact .inl ⟨⟨r, mem_of_find?_eq_some found, covers⟩, rfl⟩
  | none =>
    have free := (lookup_none_iff _ _).mp found
    rcases add_cases (s.tree which) (newRange s memp) with ⟨overlaps, added⟩ | ⟨apart, added⟩
    · exact .inr (.inl ⟨free, overlaps, by rw [added]⟩)
    · exact .inr (.inr ⟨free, apart, by rw [added]⟩)

theorem refused_tree (which other : WhichTree) :
    (({ s with next := s.next + 1 } : Registry N H cpus).setTree which (s.tree which)).tree other =
      s.tree other := by
  cases which <;> cases other <;> rfl

theorem register_inv (inv : Inv s) (which : WhichTree) (memp : MemRange N H) :
    Inv (registerMemInt which memp s).1 := by
  obtain ⟨disjoint, hint⟩ := inv
  rcases register_cases which memp s with ⟨-, done⟩ | ⟨-, -, done⟩ | ⟨-, apart, done⟩
  · rw [done]
    exact ⟨fun other => next_tree s other ▸ disjoint other, hint⟩
  · rw [done]
    constructor
    · intro other
      rw [refused_tree]
      exact disjoint other
    · intro vcpu r held
      rw [set_tree_hint] at held
      have member := hint vcpu r held
      cases which <;> exact member
  · rw [done]
    constructor
    · intro other
      by_cases same : other = which
      · rw [same, set_tree_same]
        exact disjoint_add (disjoint which) apart
      · rw [set_tree_other _ same]
        rw [next_tree]
        exact disjoint other
    · intro vcpu r held
      rw [set_tree_hint] at held
      have member := hint vcpu r held
      cases which with
      | root => exact mem_cons_of_mem _ member
      | fallback => exact member

theorem unregister_inv [DecidableEq N] (inv : Inv s) {memp : MemRange N H}
    {done : Registry N H cpus × Nat} (taken : unregisterMem memp s = some done) : Inv done.1 := by
  obtain ⟨disjoint, hint⟩ := inv
  unfold unregisterMem at taken
  split at taken
  · cases taken
    exact ⟨disjoint, hint⟩
  · rename_i entry found
    split at taken
    · cases taken
      constructor
      · intro which
        cases which with
        | root =>
          refine spread_subset (disjoint .root) ?_
          intro r member
          exact mem_of_mem_filter member
        | fallback => exact disjoint .fallback
      · intro vcpu r held
        dsimp only at held ⊢
        split at held
        · rename_i other stays
          split at held
          · cases held
          · rename_i differs
            cases held
            exact List.mem_filter.mpr ⟨hint vcpu r stays, decide_eq_true differs⟩
        · cases held
    · cases taken

theorem register_right_iff (inv : Inv s) (which : WhichTree) (memp : MemRange N H) :
    RegisterRight s which memp ↔ BaseFree s (.register which memp) := by
  have after := register_inv inv which memp
  rcases register_cases which memp s with ⟨⟨r, member, covers⟩, done⟩ | ⟨free, overlaps, done⟩ |
    ⟨free, apart, done⟩
  · refine iff_of_false ?_ fun free => free r member covers
    intro right
    have base : memp.extent.Has memp.base.toNat :=
      ⟨Nat.le_refl _, Nat.lt_add_of_pos_right memp.some_byte⟩
    have refused := right.refused.mpr ⟨r, member, _, base, covers⟩
    rw [done] at refused
    exact refused rfl
  · refine iff_of_true ⟨?_, ?_, ?_⟩ free
    · intro never
      rw [done] at never
      cases never
    · intro _ other
      rw [done]
      exact refused_tree which other
    · rw [done]
      exact iff_of_true (show eexist ≠ 0 by decide) overlaps
  · refine iff_of_true ⟨?_, ?_, ?_⟩ free
    · intro _ addr inside
      rw [done] at after ⊢
      have added : newRange s memp ∈ (({ s with next := s.next + 1 } :
          Registry N H cpus).setTree which (newRange s memp :: s.tree which)).tree which := by
        rw [set_tree_same]
        exact mem_cons_self
      have found := (lookup_iff (after.disjoint which) addr (newRange s memp)).mpr ⟨added, inside⟩
      cases which with
      | root =>
        intro vcpu
        rw [access_plain after, plainLookup]
        exact (congrArg (Option.or · _) found).trans rfl
      | fallback =>
        refine ⟨found, fun none vcpu => ?_⟩
        rw [access_plain after, plainLookup, none]
        exact found
    · intro never
      rw [done] at never
      exact absurd rfl never
    · rw [done]
      exact iff_of_false (fun never => never rfl) apart

theorem step_inv [DecidableEq N] (inv : Inv s) (call : Call N H cpus) {s' : Registry N H cpus}
    (taken : step s call = .ok s') : Inv s' := by
  cases call with
  | register which memp =>
    cases taken
    exact register_inv inv which memp
  | unregister memp =>
    unfold step at taken
    dsimp only at taken
    cases done : unregisterMem memp s with
    | none =>
      rw [done] at taken
      cases taken
    | some result =>
      rw [done] at taken
      cases taken
      exact unregister_inv inv done
  | access vcpu paddr =>
    cases taken
    exact access_inv inv vcpu paddr

theorem call_right_iff [DecidableEq N] (inv : Inv s) (call : Call N H cpus) :
    CallRight s call ↔ BaseFree s call := by
  have disjoint (s' : Registry N H cpus) (taken : step s call = .ok s') (which : WhichTree) :
      Disjoint (s'.tree which) := (step_inv inv call taken).disjoint which
  cases call with
  | register which memp =>
    rw [← register_right_iff inv which memp]
    exact ⟨fun right => right.2, fun right => ⟨disjoint, right⟩⟩
  | unregister memp => exact iff_of_true ⟨disjoint, trivial⟩ trivial
  | access vcpu paddr => exact iff_of_true ⟨disjoint, access_plain inv vcpu paddr⟩ trivial

theorem init_inv : Inv (initMem : Registry N H cpus) where
  disjoint which := by
    have empty : (initMem : Registry N H cpus).tree which = [] := by cases which <;> rfl
    rw [Disjoint, empty]
    constructor
    · intro r member
      cases member
    · intro r member
      cases member
  hint _ _ held := by cases held

/-- All calls of a run are right exactly when no range is registered that starts inside another
    one of its tree. -/
theorem calls_right_iff [DecidableEq N] (calls : List (Call N H cpus)) :
    AlongAttempts step CallRight initMem calls ↔ AlongAttempts step BaseFree initMem calls :=
  along_attempts_iff (fun _ call _ inv taken => step_inv inv call taken)
    (fun _ call inv => call_right_iff inv call) calls initMem init_inv

def lowRange : MemRange Nat Nat := ⟨0, 0x1000, 0x1000, false, 0, by decide, by decide⟩

def laterRange : MemRange Nat Nat := ⟨1, 0x1800, 0x1000, false, 1, by decide, by decide⟩

theorem later_range_lost :
    let first := (registerMemInt .root lowRange (initMem : Registry Nat Nat 1)).1
    (registerMemInt .root laterRange first).2 = 0 ∧
      ((accessMemory 0 0x2000 (registerMemInt .root laterRange first).1).2.isNone = true) ∧
      ¬ AlongAttempts step CallRight (initMem : Registry Nat Nat 1)
        [.register .root lowRange, .register .root laterRange] := by
  refine ⟨rfl, rfl, ?_⟩
  rintro ⟨-, right, -⟩
  have free := (call_right_iff (register_inv init_inv .root lowRange) _).mp right
  exact free _ mem_cons_self (show Extent.Has ⟨0x1000, 0x1000⟩ 0x1800 by decide)

end
end MmioRegistry
