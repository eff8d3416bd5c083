import Mathlib.Algebra.GroupWithZero.Nat
import Mathlib.Data.List.Nodup
import Bhyve.Passthru.Pptdev
import Bhyve.Lib.StepRuns

namespace Passthru
open StepRuns List

def WiredPage (maps : List MemMap) (g h : Nat) : Prop :=
  ∃ mm ∈ maps, sysmemMapping mm = true ∧ mm.wired = true ∧
    ∃ i < mm.len, g = mm.gpa + i ∧ h = mm.frame i

/-- A set of pages has gone from the host's map to the guest's, or back. -/
structure Moved (map : Bool) (pages : Nat → Nat → Prop) (p p' : Pages) : Prop where
  guest : ∀ g h, pages g h → p'.guest g = if map then some h else none
  guestElse : ∀ g, (∀ h, ¬ pages g h) → p'.guest g = p.guest g
  host : ∀ g h, pages g h → p'.host h = if map then none else some h
  hostElse : ∀ h, (∀ g, ¬ pages g h) → p'.host h = p.host h

theorem moved_none (map : Bool) (p : Pages) : Moved map (fun _ _ => False) p p :=
  ⟨fun _ _ never => never.elim, fun _ _ => rfl, fun _ _ never => never.elim, fun _ _ => rfl⟩

theorem moved_page (map : Bool) (gpa hpa : Nat) (p : Pages) :
    Moved map (fun g h => g = gpa ∧ h = hpa) p (movePage map gpa hpa p) := by
  refine ⟨?_, ?_, ?_, ?_⟩
  · rintro g h ⟨rfl, rfl⟩
    cases map <;> simp [movePage]
  · intro g other
    have apart : g ≠ gpa := fun same => other hpa ⟨same, rfl⟩
    cases map <;> simp [movePage, Function.update_of_ne apart]
  · rintro g h ⟨rfl, rfl⟩
    cases map <;> simp [movePage]
  · intro h other
    have apart : h ≠ hpa := fun same => other gpa ⟨rfl, same⟩
    cases map <;> simp [movePage, Function.update_of_ne apart]

theorem moved_both {map : Bool} {first second : Nat → Nat → Prop} {p q r : Pages}
    (agree : ∀ g h h', first g h → second g h' → h = h') (one : Moved map first p q)
    (two : Moved map second q r) : Moved map (fun g h => first g h ∨ second g h) p r := by
  classical
  refine ⟨?_, ?_, ?_, ?_⟩
  · rintro g h (here | here)
    · by_cases again : ∃ h', second g h'
      · obtain ⟨h', also⟩ := again
        rw [agree g h h' here also]
        exact two.guest g h' also
      · rw [two.guestElse g (not_exists.mp again)]
        exact one.guest g h here
    · exact two.guest g h here
  · intro g other
    rw [two.guestElse g fun h here => other h (.inr here)]
    exact one.guestElse g fun h here => other h (.inl here)
  · rintro g h (here | here)
    · by_cases again : ∃ g', second g' h
      · obtain ⟨g', also⟩ := again
        exact two.host g' h also
      · rw [two.hostElse h (not_exists.mp again)]
        exact one.host g h here
    · exact two.host g h here
  · intro h other
    rw [two.hostElse h fun g here => other g (.inr here)]
    exact one.hostElse h fun g here => other g (.inl here)

theorem moved_same {map : Bool} {first second : Nat → Nat → Prop} {p q : Pages}
    (same : ∀ g h, first g h ↔ second g h) (moved : Moved map first p q) : Moved map second p q := by
  have equal : first = second := funext fun g => funext fun h => propext (same g h)
  rw [← equal]
  exact moved

section
variable {all rest : List MemMap} {map : Bool} {p : Pages}

def Disjoint (maps : List MemMap) : Prop :=
  ∀ m ∈ maps, ∀ m' ∈ maps, ∀ g, sysmemMapping m = true → sysmemMapping m' = true →
    m.contains g = true → m'.contains g = true → m = m'

def Writable (maps : List MemMap) : Prop :=
  ∀ mm ∈ maps, sysmemMapping mm = true → mm.wired = true → mm.write = true

instance decidableWritable (maps : List MemMap) : Decidable (Writable maps) :=
  inferInstanceAs (Decidable (∀ mm ∈ maps, _ → _ → _))

def flag (b : Bool) (mm : MemMap) : MemMap :=
  { mm with iommu := b && sysmemMapping mm && mm.wired }

def flagged (b : Bool) (maps : List MemMap) : List MemMap := maps.map (flag b)

variable {mm : MemMap} {maps : List MemMap}

theorem contains_offset {i : Nat} (inside : i < mm.len) : mm.contains (mm.gpa + i) = true := by
  simp [MemMap.contains, inside]

theorem wired_functional (apart : Disjoint all) {g h h' : Nat} (here : WiredPage all g h)
    (also : WiredPage all g h') : h = h' := by
  obtain ⟨mm, member, sysmem, -, i, inside, rfl, rfl⟩ := here
  obtain ⟨mm', member', sysmem', -, j, inside', same, rfl⟩ := also
  have contains := contains_offset inside'
  rw [← same] at contains
  obtain rfl := apart mm member mm' member' _ sysmem sysmem' (contains_offset inside) contains
  have offsets : i = j := by omega
  rw [offsets]

theorem find_flagged (b : Bool) (maps : List MemMap) (g : Nat) :
    (flagged b maps).find? (fun mm => sysmemMapping mm && mm.contains g) =
      (maps.find? fun mm => sysmemMapping mm && mm.contains g).map (flag b) := by
  unfold flagged
  rw [find?_map]
  rfl

theorem hold_flagged (b : Bool) (apart : Disjoint all) (member : mm ∈ all)
    (sysmem : sysmemMapping mm = true) {i : Nat} (inside : i < mm.len) :
    vmGpaHold (flagged b all) (mm.gpa + i) = if mm.write then some (mm.frame i) else none := by
  unfold vmGpaHold
  rw [find_flagged]
  cases found : all.find? fun m => sysmemMapping m && m.contains (mm.gpa + i) with
  | none =>
    have never := List.find?_eq_none.mp found mm member
    rw [sysmem, contains_offset inside] at never
    exact absurd rfl never
  | some m =>
    have holds := find?_some found
    rw [Bool.and_eq_true] at holds
    have same := apart m (mem_of_find?_eq_some found) mm member _ holds.1 sysmem holds.2
      (contains_offset inside)
    rw [same]
    show (if mm.write then some (mm.frame (mm.gpa + i - mm.gpa)) else none) = _
    rw [Nat.add_sub_cancel_left]

theorem modify_pages_goes {frame : Nat → Nat} : ∀ n gpa first (p : Pages),
    (∀ i < n, vmGpaHold all (gpa + i) = some (frame (first + i))) →
      ∃ p', modifyPages all map gpa n p = .ok p' ∧
        Moved map (fun g h => ∃ i < n, g = gpa + i ∧ h = frame (first + i)) p p' := by
  intro n
  induction n with
  | zero =>
    intro gpa first p _
    refine ⟨p, rfl, moved_same (fun g h => ?_) (moved_none map p)⟩
    simp
  | succ n ih =>
    intro gpa first p held
    have here := held 0 (Nat.succ_pos n)
    obtain ⟨p', ran, moved⟩ := ih (gpa + 1) (first + 1) (movePage map gpa (frame first) p) fun i bound => by
      have later := held (i + 1) (Nat.succ_lt_succ bound)
      rwa [show gpa + (i + 1) = gpa + 1 + i by omega,
        show first + (i + 1) = first + 1 + i by omega] at later
    refine ⟨p', ?_, moved_same (fun g h => ?_) (moved_both ?_ (moved_page map gpa (frame first) p) moved)⟩
    · unfold modifyPages
      rw [Nat.add_zero, Nat.add_zero] at here
      rw [here]
      exact ran
    · constructor
      · rintro (⟨rfl, rfl⟩ | ⟨i, bound, rfl, rfl⟩)
        · exact ⟨0, Nat.succ_pos n, rfl, rfl⟩
        · exact ⟨i + 1, Nat.succ_lt_succ bound, by omega, by congr 1; omega⟩
      · rintro ⟨i, bound, rfl, rfl⟩
        cases i with
        | zero => exact .inl ⟨rfl, rfl⟩
        | succ i => exact .inr ⟨i, Nat.lt_of_succ_lt_succ bound, by omega, by congr 1; omega⟩
    · rintro g h h' ⟨rfl, -⟩ ⟨i, -, never, -⟩
      omega

theorem modify_pages_fails {gpa n : Nat} (some_ : 0 < n) (held : vmGpaHold all gpa = none)
    (p : Pages) : modifyPages all map gpa n p = .error .notMapped := by
  cases n with
  | zero => cases some_
  | succ n =>
    unfold modifyPages
    rw [held]

theorem modify_map_moves {q : Pages} (sysmem : sysmemMapping mm = true) (wired : mm.wired = true)
    (ran : modifyPages maps map mm.gpa mm.len p = .ok q) :
    modifyMap maps map (flag (!map) mm) p = .ok (flag map mm, q) := by
  have same : ∀ b, sysmemMapping (flag b mm) = true := fun _ => sysmem
  have stays : ∀ b, (flag b mm).wired = true := fun _ => wired
  have flags : ∀ b, (flag b mm).iommu = b := fun b => by simp [flag, sysmem, wired]
  replace ran : modifyPages maps map (flag (!map) mm).gpa (flag (!map) mm).len p = .ok q := ran
  unfold modifyMap
  rw [same, stays, flags, ran]
  cases map <;> simp [flag, sysmem, wired]

theorem modify_map_stops {fault : Fault} (sysmem : sysmemMapping mm = true)
    (wired : mm.wired = true) (failed : modifyPages maps map mm.gpa mm.len p = .error fault) :
    modifyMap maps map (flag (!map) mm) p = .error fault := by
  have same : ∀ b, sysmemMapping (flag b mm) = true := fun _ => sysmem
  have stays : ∀ b, (flag b mm).wired = true := fun _ => wired
  have flags : ∀ b, (flag b mm).iommu = b := fun b => by simp [flag, sysmem, wired]
  replace failed : modifyPages maps map (flag (!map) mm).gpa (flag (!map) mm).len p = .error fault :=
    failed
  unfold modifyMap
  rw [same, stays, flags, failed]
  cases map <;> rfl

theorem modify_map_skips (off : ¬ (sysmemMapping mm = true ∧ mm.wired = true)) :
    modifyMap maps map (flag (!map) mm) p = .ok (flag map mm, p) := by
  have flags : ∀ b, flag b mm = { mm with iommu := false } := by
    intro b
    have noDomain : (b && sysmemMapping mm && mm.wired) = false := by
      rw [Bool.and_assoc, Bool.and_eq_false_iff]
      exact .inr (Bool.eq_false_iff.mpr fun both => off (by simpa using both))
    unfold flag
    rw [noDomain]
  rw [flags, flags]
  unfold modifyMap
  by_cases sysmem : sysmemMapping mm = true
  · have wired : mm.wired = false := Bool.eq_false_iff.mpr fun here => off ⟨sysmem, here⟩
    have same : sysmemMapping { mm with iommu := false } = true := sysmem
    rw [same, wired]
    cases map <;> rfl
  · exact if_pos (Bool.eq_false_iff.mpr sysmem)

theorem wired_cons (mm : MemMap) (g h : Nat) : WiredPage (mm :: rest) g h ↔
    (sysmemMapping mm = true ∧ mm.wired = true ∧ ∃ i < mm.len, g = mm.gpa + i ∧ h = mm.frame i) ∨
      WiredPage rest g h := by
  constructor
  · rintro ⟨m, member, page⟩
    rcases List.mem_cons.mp member with rfl | later
    · exact .inl page
    · exact .inr ⟨m, later, page⟩
  · rintro (page | ⟨m, later, page⟩)
    · exact ⟨mm, mem_cons_self, page⟩
    · exact ⟨m, mem_cons_of_mem mm later, page⟩

theorem modify_maps_goes (apart : Disjoint all) : ∀ (rest : List MemMap) (p : Pages),
    (∀ mm ∈ rest, mm ∈ all) → Writable rest →
      ∃ p', modifyMaps (flagged (!map) all) map (flagged (!map) rest) p = .ok (flagged map rest, p') ∧
        Moved map (WiredPage rest) p p' := by
  intro rest
  induction rest with
  | nil =>
    intro p _ _
    refine ⟨p, rfl, moved_same (fun g h => ?_) (moved_none map p)⟩
    simp [WiredPage]
  | cons mm rest ih =>
    intro p inside writable
    have member := inside mm mem_cons_self
    have later := fun q => ih q (fun m here => inside m (mem_cons_of_mem mm here))
      (fun m here => writable m (mem_cons_of_mem mm here))
    by_cases page : sysmemMapping mm = true ∧ mm.wired = true
    · obtain ⟨q, ran, moved⟩ := @modify_pages_goes (flagged (!map) all) map mm.frame mm.len mm.gpa 0 p
        fun i bound => by
          rw [hold_flagged (!map) apart member page.1 bound,
            if_pos (writable mm mem_cons_self page.1 page.2), Nat.zero_add]
      obtain ⟨r, rested, moves⟩ := later q
      refine ⟨r, ?_, moved_same (fun g h => ?_) (moved_both ?_ moved moves)⟩
      · show modifyMaps _ map (flag (!map) mm :: flagged (!map) rest) p =
          .ok (flag map mm :: flagged map rest, r)
        rw [modifyMaps, modify_map_moves page.1 page.2 ran]
        dsimp only
        rw [rested]
      · rw [wired_cons]
        simp [page.1, page.2]
      · rintro g h h' ⟨i, bound, rfl, rfl⟩ wired
        refine wired_functional apart (⟨mm, member, page.1, page.2, i, bound, rfl, ?_⟩)
          (?_ : WiredPage all _ h')
        · rw [Nat.zero_add]
        · obtain ⟨m, here, fits⟩ := wired
          exact ⟨m, inside m (mem_cons_of_mem mm here), fits⟩
    · obtain ⟨r, rested, moves⟩ := later p
      refine ⟨r, ?_, moved_same (fun g h => ?_) moves⟩
      · show modifyMaps _ map (flag (!map) mm :: flagged (!map) rest) p =
          .ok (flag map mm :: flagged map rest, r)
        rw [modifyMaps, modify_map_skips page]
        dsimp only
        rw [rested]
      · rw [wired_cons]
        simp [← and_assoc, page]

theorem modify_maps_fails (apart : Disjoint all) : ∀ (rest : List MemMap) (p : Pages),
    (∀ mm ∈ rest, mm ∈ all) → ¬ Writable rest →
      ∃ fault, modifyMaps (flagged (!map) all) map (flagged (!map) rest) p = .error fault := by
  intro rest
  induction rest with
  | nil =>
    intro p _ never
    exact absurd nofun never
  | cons mm rest ih =>
    intro p inside never
    have member := inside mm mem_cons_self
    show ∃ fault, modifyMaps _ map (flag (!map) mm :: flagged (!map) rest) p = .error fault
    rw [modifyMaps]
    by_cases page : sysmemMapping mm = true ∧ mm.wired = true
    · by_cases write : mm.write = true
      · obtain ⟨q, ran, -⟩ := @modify_pages_goes (flagged (!map) all) map mm.frame mm.len mm.gpa 0 p
          fun i bound => by rw [hold_flagged (!map) apart member page.1 bound, if_pos write, Nat.zero_add]
        obtain ⟨fault, failed⟩ := ih q (fun m here => inside m (mem_cons_of_mem mm here))
          fun fits => never fun m here => by
            rcases List.mem_cons.mp here with rfl | later
            · exact fun _ _ => write
            · exact fits m later
        rw [modify_map_moves page.1 page.2 ran]
        dsimp only
        rw [failed]
        exact ⟨fault, rfl⟩
      · have some_ : 0 < mm.len := by
          have length := page.1
          unfold sysmemMapping at length
          simp only [Bool.and_eq_true, decide_eq_true_eq] at length
          exact Nat.pos_of_ne_zero length.1
        have held := hold_flagged (!map) apart member page.1 some_
        rw [Nat.add_zero, if_neg write] at held
        rw [modify_map_stops page.1 page.2 (modify_pages_fails some_ held p)]
        exact ⟨_, rfl⟩
    · obtain ⟨fault, failed⟩ := ih p (fun m here => inside m (mem_cons_of_mem mm here))
        fun fits => never fun m here => by
          rcases List.mem_cons.mp here with rfl | later
          · exact fun sysmem wired => absurd ⟨sysmem, wired⟩ page
          · exact fits m later
      rw [modify_map_skips page]
      dsimp only
      rw [failed]
      exact ⟨fault, rfl⟩

theorem wired_flagged (b : Bool) (maps : List MemMap) (g h : Nat) :
    WiredPage (flagged b maps) g h ↔ WiredPage maps g h := by
  constructor
  · rintro ⟨mm, member, page⟩
    obtain ⟨m, inside, rfl⟩ := List.mem_map.mp member
    exact ⟨m, inside, page⟩
  · rintro ⟨mm, member, page⟩
    exact ⟨flag b mm, List.mem_map_of_mem member, page⟩

theorem writable_flagged (b : Bool) (maps : List MemMap) :
    Writable (flagged b maps) ↔ Writable maps := by
  constructor
  · intro fits mm member
    exact fits (flag b mm) (List.mem_map_of_mem member)
  · intro fits mm member
    obtain ⟨m, inside, rfl⟩ := List.mem_map.mp member
    exact fits m inside

theorem flagged_empty (empty : ∀ g h, ¬ WiredPage all g h) (b c : Bool) :
    flagged b all = flagged c all := by
  refine map_congr_left fun mm member => ?_
  have off : (sysmemMapping mm && mm.wired) = false := by
    rw [Bool.eq_false_iff, ne_eq, Bool.and_eq_true]
    rintro ⟨sysmem, wired⟩
    have length := sysmem
    unfold sysmemMapping at length
    simp only [Bool.and_eq_true, decide_eq_true_eq] at length
    exact empty _ _ ⟨mm, member, sysmem, wired, 0, Nat.pos_of_ne_zero length.1, rfl, rfl⟩
  unfold flag
  rw [Bool.and_assoc, Bool.and_assoc, off, Bool.and_false, Bool.and_false]

end

section
variable {base : Nat → List MemMap} {inUse : Nat → Bool} {s : Host} {v : Nat}

/-- The memory of the guests: no address is in two mappings of a guest, and no host page is behind
    two guests. -/
structure Layout (base : Nat → List MemMap) : Prop where
  disjoint : ∀ v, Disjoint (base v)
  apart : ∀ v w g g' h, WiredPage (base v) g h → WiredPage (base w) g' h → v = w

/-- The wired pages of the guests in use are in their domains, those of the others in the host's. -/
structure Mapped (base : Nat → List MemMap) (inUse : Nat → Bool) (s : Host) : Prop where
  maps : ∀ v, (s.vms v).maps = flagged (inUse v) (base v)
  domain : ∀ v, inUse v = true → (s.vms v).iommu ≠ none
  writable : ∀ v, inUse v = true → Writable (base v)
  inside : ∀ v dom, (s.vms v).iommu = some dom → 0 < dom ∧ dom < s.ndomains
  apart : ∀ v w dom, (s.vms v).iommu = some dom → (s.vms w).iommu = some dom → v = w
  guest : ∀ v dom, (s.vms v).iommu = some dom → ∀ g h,
    s.tables dom g = some h ↔ inUse v = true ∧ WiredPage (base v) g h
  host : ∀ v g h, WiredPage (base v) g h → s.tables 0 h = if inUse v then none else some h
  avail : s.avail = false → ∀ v, (s.vms v).iommu = none
  some_domain : 0 < s.ndomains

structure SameDevices (s s' : Host) : Prop where
  devs : s'.devs = s.devs
  ctx : s'.ctx = s.ctx
  avail : s'.avail = s.avail
  iommu : ∀ w, (s'.vms w).iommu = (s.vms w).iommu

theorem modify_goes {map : Bool} (layout : Layout base) (mapped : Mapped base inUse s)
    (before : inUse v = !map) {dom : Nat} (there : (s.vms v).iommu = some dom)
    (writable : Writable (base v)) :
    ∃ s', vmIommuModify v map s = .ok s' ∧ Mapped base (Function.update inUse v map) s' ∧
      SameDevices s s' := by
  obtain ⟨p, ran, moved⟩ := @modify_maps_goes (base v) map (layout.disjoint v) (base v)
    ⟨s.tables dom, s.tables 0⟩ (fun _ member => member) writable
  unfold vmIommuModify
  rw [there]
  dsimp only
  rw [mapped.maps v, before, ran]
  have iommus : ∀ w, ((Function.update s.vms v { s.vms v with maps := flagged map (base v) }) w).iommu =
      (s.vms w).iommu := by
    intro w
    by_cases same : w = v
    · rw [same, Function.update_self]
    · rw [Function.update_of_ne same]
  refine ⟨_, rfl, ⟨fun w => ?_, fun w used => ?_, fun w used => ?_, fun w d here => ?_,
    fun w x d one two => ?_, fun w d here g h => ?_, fun w g h page => ?_, fun off w => ?_,
    mapped.some_domain⟩, ⟨rfl, rfl, rfl, iommus⟩⟩
  · show ((Function.update s.vms v { s.vms v with maps := flagged map (base v) }) w).maps = _
    by_cases same : w = v
    · subst same
      rw [Function.update_self, Function.update_self]
    · rw [Function.update_of_ne same, Function.update_of_ne same]
      exact mapped.maps w
  · rw [iommus]
    by_cases same : w = v
    · rw [same, there]
      simp
    · rw [Function.update_of_ne same] at used
      exact mapped.domain w used
  · by_cases same : w = v
    · rw [same]
      exact writable
    · rw [Function.update_of_ne same] at used
      exact mapped.writable w used
  · exact mapped.inside w d (iommus w ▸ here)
  · exact mapped.apart w x d (iommus w ▸ one) (iommus x ▸ two)
  · replace here : (s.vms w).iommu = some d := iommus w ▸ here
    have zero : d ≠ 0 := Nat.ne_of_gt (mapped.inside w d here).1
    show Function.update (Function.update s.tables dom p.guest) 0 p.host d g = some h ↔ _
    rw [Function.update_of_ne zero]
    by_cases same : w = v
    · subst same
      obtain rfl := Option.some.inj (there.symm.trans here)
      rw [Function.update_self, Function.update_self]
      by_cases page : ∃ h', WiredPage (base w) g h'
      · obtain ⟨h', page⟩ := page
        rw [moved.guest g h' page]
        constructor
        · intro same
          cases map with
          | false => cases same
          | true =>
            cases same
            exact ⟨rfl, page⟩
        · rintro ⟨rfl, other⟩
          rw [wired_functional (layout.disjoint w) page other]
          rfl
      · rw [moved.guestElse g (not_exists.mp page)]
        refine iff_of_false (fun never => page ⟨h, ?_⟩) fun never => page ⟨h, never.2⟩
        exact ((mapped.guest w dom there g h).mp never).2
    · have other : d ≠ dom := by
        rintro rfl
        exact same (mapped.apart w v d here there)
      rw [Function.update_of_ne other, Function.update_of_ne same]
      exact mapped.guest w d here g h
  · show Function.update (Function.update s.tables dom p.guest) 0 p.host 0 h = _
    rw [Function.update_self]
    by_cases same : w = v
    · subst same
      rw [Function.update_self]
      exact moved.host g h page
    · rw [Function.update_of_ne same, moved.hostElse h fun g' other =>
        same (layout.apart w v g g' h page other)]
      exact mapped.host w g h page
  · show ((Function.update s.vms v _) w).iommu = none
    rw [iommus]
    exact mapped.avail off w

theorem modify_fails (layout : Layout base) (mapped : Mapped base inUse s) (before : inUse v = false)
    (never : ¬ Writable (base v)) : ∃ fault, vmIommuModify v true s = .error fault := by
  unfold vmIommuModify
  cases there : (s.vms v).iommu with
  | none => exact ⟨_, rfl⟩
  | some dom =>
    obtain ⟨fault, failed⟩ := @modify_maps_fails (base v) true (layout.disjoint v) (base v)
      ⟨s.tables dom, s.tables 0⟩ (fun _ member => member) never
    dsimp only
    rw [mapped.maps v, before]
    replace failed : modifyMaps (flagged false (base v)) true (flagged false (base v)) _ = _ := failed
    rw [failed]
    exact ⟨fault, rfl⟩

theorem create_mapped (mapped : Mapped base inUse s) (none_yet : (s.vms v).iommu = none)
    (avail : s.avail = true) :
    Mapped base inUse (({ s with
      ndomains := s.ndomains + 1
      tables := Function.update s.tables s.ndomains fun _ => none } : Host).setIommu v s.ndomains) := by
  have idle : inUse v = false := Bool.eq_false_iff.mpr fun used => mapped.domain v used none_yet
  have iommus : ∀ w, w ≠ v →
      (Function.update s.vms v { s.vms v with iommu := some s.ndomains } w) = s.vms w :=
    fun w other => Function.update_of_ne other _ _
  refine ⟨fun w => ?_, fun w used => ?_, mapped.writable, fun w d here => ?_, fun w x d one two => ?_,
    fun w d here g h => ?_, fun w g h page => ?_, fun off => absurd (off.symm.trans avail) (by simp),
    Nat.succ_pos _⟩
  · show (Function.update s.vms v _ w).maps = _
    by_cases same : w = v
    · rw [same, Function.update_self]
      exact mapped.maps v
    · rw [iommus w same]
      exact mapped.maps w
  · show (Function.update s.vms v _ w).iommu ≠ none
    by_cases same : w = v
    · rw [same, Function.update_self]
      simp
    · rw [iommus w same]
      exact mapped.domain w used
  · replace here : (Function.update s.vms v _ w).iommu = some d := here
    by_cases same : w = v
    · rw [same, Function.update_self] at here
      cases here
      exact ⟨mapped.some_domain, Nat.lt_succ_self _⟩
    · rw [iommus w same] at here
      obtain ⟨positive, bound⟩ := mapped.inside w d here
      exact ⟨positive, Nat.lt_succ_of_lt bound⟩
  · replace one : (Function.update s.vms v _ w).iommu = some d := one
    replace two : (Function.update s.vms v _ x).iommu = some d := two
    by_cases first : w = v <;> by_cases second : x = v
    · rw [first, second]
    · rw [first, Function.update_self] at one
      rw [iommus x second] at two
      cases one
      exact absurd (mapped.inside x _ two).2 (Nat.lt_irrefl _)
    · rw [iommus w first] at one
      rw [second, Function.update_self] at two
      cases two
      exact absurd (mapped.inside w _ one).2 (Nat.lt_irrefl _)
    · rw [iommus w first] at one
      rw [iommus x second] at two
      exact mapped.apart w x d one two
  · replace here : (Function.update s.vms v _ w).iommu = some d := here
    show Function.update s.tables s.ndomains (fun _ => none) d g = some h ↔ _
    by_cases same : w = v
    · subst same
      rw [Function.update_self] at here
      cases here
      rw [Function.update_self, idle]
      exact iff_of_false nofun fun never => by cases never.1
    · rw [iommus w same] at here
      rw [Function.update_of_ne (Nat.ne_of_lt (mapped.inside w d here).2)]
      exact mapped.guest w d here g h
  · show Function.update s.tables s.ndomains (fun _ => none) 0 h = _
    rw [Function.update_of_ne (Nat.ne_of_lt mapped.some_domain)]
    exact mapped.host w g h page

end

section
variable {base : Nat → List MemMap} {inUse : Nat → Bool} {s s' : Host} {v bus slot func : Nat}

def Owns (s : Host) (v : Nat) : Prop := ∃ d ∈ s.devs, d.vm = some v

theorem assigned_zero : pptAssignedDevices v s = 0 ↔ ¬ Owns s v := by
  unfold pptAssignedDevices Owns
  simp

def Pptdev.place (d : Pptdev) : Fin 256 × Fin 32 × Fin 8 := (d.bus, d.slot, d.func)

structure Owned (s : Host) : Prop where
  places : ∀ d ∈ s.devs, ∀ d' ∈ s.devs, d.place = d'.place → d = d'
  ctx : ∀ d ∈ s.devs, s.ctx (pciGetRid d) = d.vm.bind fun v => (s.vms v).iommu

/-- What is to hold between calls: a context entry is that of the owner's domain, and a wired page
    is in its guest's domain and not in the host's just where the guest owns a device. -/
structure Sound (s : Host) : Prop where
  ctx : ∀ d ∈ s.devs, ∀ dom, s.ctx (pciGetRid d) = some dom →
    ∃ v, d.vm = some v ∧ (s.vms v).iommu = some dom
  pages : ∀ v g h, WiredPage (s.vms v).maps g h →
    (((∃ dom, (s.vms v).iommu = some dom ∧ s.tables dom g = some h) ∧ s.tables 0 h = none) ↔ Owns s v)

def KeepsSound (s : Host) (c : Call) : Prop := ∃ s', callStep s c = .ok s' ∧ Sound s'

/-- The device at a place has no owner, and some unit translates for it. -/
def FreeAt (bus slot func : Nat) (s : Host) : Prop :=
  ∃ d, pptFind bus slot func s = some d ∧ d.vm = none ∧ d.inScope = true

def TakenAt (bus slot func : Nat) (s : Host) : Prop :=
  ∀ d, pptFind bus slot func s = some d → d.vm ≠ none

/-- Which calls are in order: the first assignment of a guest finds its wired memory writable and
    takes a free device, and later ones take no device that is the guest's, and none after the
    guest has given its last device back. -/
def InOrder (s : Host) : Call → Prop
  | .unassign _ _ _ _ => True
  | .assign v bus slot func =>
      if pptAssignedDevices v s = 0 then
        s.avail = true →
          (s.vms v).iommu = none ∧ Writable (s.vms v).maps ∧
            (FreeAt bus slot func s ∨
              TakenAt bus slot func s ∧ ∀ g h, ¬ WiredPage (s.vms v).maps g h)
      else
        ∀ d, pptFind bus slot func s = some d →
          d.vm ≠ some v ∧ (d.vm = none → d.inScope = true)

variable {d : Pptdev}

theorem find_place (found : pptFind bus slot func s = some d) :
    d ∈ s.devs ∧ d.bus.val = bus ∧ d.slot.val = slot ∧ d.func.val = func := by
  have holds := find?_some found
  simp only [Pptdev.isAt, Bool.and_eq_true, decide_eq_true_eq] at holds
  exact ⟨mem_of_find?_eq_some found, holds.1.1, holds.1.2, holds.2⟩

theorem is_at_self (owned : Owned s) {d' : Pptdev} (found : pptFind bus slot func s = some d)
    (member : d' ∈ s.devs) (here : d'.isAt bus slot func = true) : d' = d := by
  obtain ⟨inside, bus_, slot_, func_⟩ := find_place found
  simp only [Pptdev.isAt, Bool.and_eq_true, decide_eq_true_eq] at here
  refine owned.places d' member d inside ?_
  unfold Pptdev.place
  rw [Fin.ext (here.1.1.trans bus_.symm), Fin.ext (here.1.2.trans slot_.symm),
    Fin.ext (here.2.trans func_.symm)]

theorem is_at_found (found : pptFind bus slot func s = some d) : d.isAt bus slot func = true := by
  exact @find?_some _ (fun d : Pptdev => d.isAt bus slot func) _ _ found

theorem rid_place {d' : Pptdev} (same : pciGetRid d = pciGetRid d') : d.place = d'.place := by
  unfold pciGetRid at same
  unfold Pptdev.place
  rw [Fin.ext (show d.bus.val = d'.bus.val by omega), Fin.ext (show d.slot.val = d'.slot.val by omega),
    Fin.ext (show d.func.val = d'.func.val by omega)]

theorem rid_owner (d : Pptdev) (owner : Option Nat) :
    pciGetRid { d with vm := owner } = pciGetRid d := rfl

def Host.handOver (d : Pptdev) (owner : Option Nat) (s : Host) : Host :=
  { s with ctx := Function.update s.ctx (pciGetRid d) (owner.bind fun v => (s.vms v).iommu) }

theorem handed_ctx (d : Pptdev) (owner : Option Nat) (s : Host) (bus slot func : Nat) :
    ((s.handOver d owner).setOwner bus slot func owner).ctx =
      Function.update s.ctx (pciGetRid d) (owner.bind fun v => (s.vms v).iommu) := rfl

theorem owner_changes (owned : Owned s) (found : pptFind bus slot func s = some d)
    (owner : Option Nat) : Owned ((s.handOver d owner).setOwner bus slot func owner) := by
  have inside := (find_place found).1
  refine ⟨?_, ?_⟩
  · intro e member e' member' same
    obtain ⟨f, here, rfl⟩ := List.mem_map.mp member
    obtain ⟨f', here', rfl⟩ := List.mem_map.mp member'
    have places : ∀ f : Pptdev,
        (if f.isAt bus slot func then { f with vm := owner } else f).place = f.place := by
      intro f
      split <;> rfl
    rw [places, places] at same
    rw [owned.places f here f' here' same]
  · intro e member
    obtain ⟨f, here, rfl⟩ := List.mem_map.mp member
    by_cases at_ : f.isAt bus slot func = true
    · rw [if_pos at_]
      obtain rfl := is_at_self owned found here at_
      rw [handed_ctx, rid_owner f owner, Function.update_self]
      rfl
    · have other : pciGetRid f ≠ pciGetRid d := fun same =>
        at_ (owned.places f here d inside (rid_place same) ▸ is_at_found found)
      rw [if_neg at_, handed_ctx, Function.update_of_ne other]
      exact owned.ctx f here

theorem owns_changes (owned : Owned s) (found : pptFind bus slot func s = some d)
    (owner : Option Nat) (w : Nat) : Owns (s.setOwner bus slot func owner) w ↔
      owner = some w ∨ ∃ d' ∈ s.devs, d' ≠ d ∧ d'.vm = some w := by
  have inside := (find_place found).1
  constructor
  · rintro ⟨e, member, owns⟩
    obtain ⟨f, here, rfl⟩ := List.mem_map.mp member
    by_cases at_ : f.isAt bus slot func = true
    · rw [if_pos at_] at owns
      exact .inl owns
    · rw [if_neg at_] at owns
      exact .inr ⟨f, here, fun same => at_ (same ▸ is_at_found found), owns⟩
  · rintro (same | ⟨d', here, other, owns⟩)
    · refine ⟨{ d with vm := owner }, List.mem_map.mpr ⟨d, inside, ?_⟩, same⟩
      rw [if_pos (is_at_found found)]
    · refine ⟨d', List.mem_map.mpr ⟨d', here, ?_⟩, owns⟩
      rw [if_neg fun at_ => other (is_at_self owned found here at_)]

theorem same_owned (same : SameDevices s s') (owned : Owned s) : Owned s' := by
  refine ⟨?_, ?_⟩
  · rw [same.devs]
    exact owned.places
  · rw [same.devs, same.ctx]
    intro d member
    rw [owned.ctx d member]
    cases d.vm with
    | none => rfl
    | some v => exact (same.iommu v).symm

/-- Between calls the guests in use are those that own a device. -/
structure Settled (base : Nat → List MemMap) (inUse : Nat → Bool) (s : Host) : Prop where
  owned : Owned s
  mapped : Mapped base inUse s
  owns : ∀ v, inUse v = true ↔ Owns s v

theorem settled_sound (settled : Settled base inUse s) : Sound s := by
  obtain ⟨owned, mapped, owns⟩ := settled
  refine ⟨fun d member dom entry => ?_, fun v g h page => ?_⟩
  · rw [owned.ctx d member] at entry
    cases owner : d.vm with
    | none =>
      rw [owner] at entry
      cases entry
    | some v =>
      rw [owner] at entry
      exact ⟨v, rfl, entry⟩
  · rw [mapped.maps v, wired_flagged] at page
    rw [← owns v]
    constructor
    · rintro ⟨⟨dom, there, maps⟩, -⟩
      exact ((mapped.guest v dom there g h).mp maps).1
    · intro used
      refine ⟨?_, ?_⟩
      · obtain ⟨dom, there⟩ := Option.ne_none_iff_exists'.mp (mapped.domain v used)
        exact ⟨dom, there, (mapped.guest v dom there g h).mpr ⟨used, page⟩⟩
      · rw [mapped.host v g h page, used]
        rfl

theorem mapped_empty (mapped : Mapped base inUse s) (empty : ∀ g h, ¬ WiredPage (base v) g h) :
    Mapped base (Function.update inUse v false) s := by
  refine ⟨fun w => ?_, fun w used => ?_, fun w used => ?_, mapped.inside, mapped.apart,
    fun w d here g h => ?_, fun w g h page => ?_, mapped.avail, mapped.some_domain⟩ <;>
    by_cases same : w = v
  · subst same
    rw [mapped.maps w]
    exact flagged_empty empty _ _
  · rw [Function.update_of_ne same]
    exact mapped.maps w
  · rw [same, Function.update_self] at used
    cases used
  · rw [Function.update_of_ne same] at used
    exact mapped.domain w used
  · rw [same, Function.update_self] at used
    cases used
  · rw [Function.update_of_ne same] at used
    exact mapped.writable w used
  · subst same
    rw [mapped.guest w d here g h]
    exact iff_of_false (fun both => empty g h both.2) fun both => empty g h both.2
  · rw [Function.update_of_ne same]
    exact mapped.guest w d here g h
  · subst same
    exact absurd page (empty g h)
  · rw [Function.update_of_ne same]
    exact mapped.host w g h page

theorem assign_goes (owned : Owned s) (mapped : Mapped base inUse s) (used : inUse v = true)
    (others : ∀ w, w ≠ v → (inUse w = true ↔ Owns s w)) (found : pptFind bus slot func s = some d)
    (free : d.vm = none) (scope : d.inScope = true) :
    ∃ s', pptAssignDevice v bus slot func s = .ok (.none, s') ∧ Settled base inUse s' := by
  obtain ⟨dom, there⟩ := Option.ne_none_iff_exists'.mp (mapped.domain v used)
  have entry := owned.ctx d (find_place found).1
  rw [free] at entry
  have same : (s.handOver d (some v)).setOwner bus slot func (some v) =
      { s.setOwner bus slot func (some v) with
        ctx := Function.update s.ctx (pciGetRid d) (some dom) } := by
    unfold Host.handOver Host.setOwner
    rw [Option.bind_some, there]
  refine ⟨_, ?_, owner_changes owned found (some v), ⟨mapped.maps, mapped.domain, mapped.writable,
    mapped.inside, mapped.apart, mapped.guest, mapped.host, mapped.avail, mapped.some_domain⟩,
    fun w => ?_⟩
  · have domain : ((s.setOwner bus slot func (some v)).vms v).iommu = some dom := there
    have absent : (s.setOwner bus slot func (some v)).ctx (pciGetRid d) = none := entry
    unfold pptAssignDevice iommuAddDevice vtdAddDevice
    rw [found]
    dsimp only
    rw [if_neg fun taken => taken.1 free, domain]
    rw [absent, scope, same]
    rfl
  · rw [show Owns ((s.handOver d (some v)).setOwner bus slot func (some v)) w ↔
      Owns (s.setOwner bus slot func (some v)) w from Iff.rfl, owns_changes owned found]
    by_cases same : w = v
    · rw [same]
      exact iff_of_true used (.inl rfl)
    · rw [others w same]
      constructor
      · rintro ⟨e, member, owns⟩
        refine .inr ⟨e, member, fun this => ?_, owns⟩
        rw [this, free] at owns
        cases owns
      · rintro (here | ⟨e, member, -, owns⟩)
        · exact absurd (Option.some.inj here).symm same
        · exact ⟨e, member, owns⟩

theorem assign_refused
    (taken : ∀ d, pptFind bus slot func s = some d → d.vm ≠ none ∧ d.vm ≠ some v) :
    ∃ error, pptAssignDevice v bus slot func s = .ok (error, s) := by
  unfold pptAssignDevice
  cases found : pptFind bus slot func s with
  | none => exact ⟨_, rfl⟩
  | some d =>
    dsimp only
    rw [if_pos (taken d found)]
    exact ⟨_, rfl⟩

theorem assign_panics (owned : Owned s) (found : pptFind bus slot func s = some d)
    (mine : d.vm = none ∨ d.vm = some v)
    (bad : d.vm = some v ∧ (s.vms v).iommu ≠ none ∨ d.inScope = false) :
    ∃ fault, pptAssignDevice v bus slot func s = .error fault := by
  have entry := owned.ctx d (find_place found).1
  have stays : (s.setOwner bus slot func (some v)).ctx (pciGetRid d) = s.ctx (pciGetRid d) := rfl
  have domain : ((s.setOwner bus slot func (some v)).vms v).iommu = (s.vms v).iommu := rfl
  unfold pptAssignDevice iommuAddDevice vtdAddDevice
  rw [found]
  dsimp only
  rw [if_neg fun taken => mine.elim taken.1 taken.2, domain]
  cases there : (s.vms v).iommu with
  | none => exact ⟨_, rfl⟩
  | some dom =>
    rw [stays, entry]
    obtain ⟨owner, -⟩ | scope := bad
    · rw [owner, Option.bind_some, there]
      exact ⟨_, rfl⟩
    · rw [scope]
      cases (d.vm.bind fun v => (s.vms v).iommu).isSome <;> exact ⟨_, rfl⟩

theorem first_assign (layout : Layout base) (settled : Settled base inUse s) (idle : ¬ Owns s v)
    (avail : s.avail = true) (none_yet : (s.vms v).iommu = none) (writable : Writable (base v)) :
    ∃ s', (∀ bus slot func, vmAssignPptdev v bus slot func s = pptAssignDevice v bus slot func s') ∧
      Mapped base (Function.update inUse v true) s' ∧ Owned s' ∧ s'.devs = s.devs := by
  have before : inUse v = false := Bool.eq_false_iff.mpr fun used => idle ((settled.owns v).mp used)
  have created := create_mapped settled.mapped none_yet avail
  obtain ⟨s', ran, mapped, same⟩ := @modify_goes _ _ _ v true layout created before s.ndomains
    (by simp [Host.setIommu]) writable
  refine ⟨s', fun bus slot func => ?_, mapped, same_owned same ⟨settled.owned.places, ?_⟩, same.devs⟩
  · unfold vmAssignPptdev iommuCreateDomain
    rw [if_pos (assigned_zero.mpr idle), if_neg (not_not.mpr none_yet), if_pos avail]
    dsimp only
    rw [ran]
  · intro d member
    refine (settled.owned.ctx d member).trans ?_
    cases owner : d.vm with
    | none => rfl
    | some w =>
      have other : w ≠ v := fun same => idle ⟨d, member, same ▸ owner⟩
      show (s.vms w).iommu = (Function.update s.vms v _ w).iommu
      rw [Function.update_of_ne other]

theorem unassign_refused (error : Errno) (some_error : error ≠ .none)
    (refused : pptUnassignDevice v bus slot func s = (error, s)) :
    callStep s (.unassign v bus slot func) = .ok s := by
  unfold callStep call vmUnassignPptdev
  dsimp only
  rw [refused]
  cases error with
  | none => exact absurd rfl some_error
  | _ => rfl

theorem unassign_owned (found : pptFind bus slot func s = some d) (owner : d.vm = some v) :
    callStep s (.unassign v bus slot func) =
      let given := (s.handOver d none).setOwner bus slot func none
      if pptAssignedDevices v given = 0 then vmIommuModify v false given else .ok given := by
  have ran : pptUnassignDevice v bus slot func s =
      (.none, (s.handOver d none).setOwner bus slot func none) := by
    unfold pptUnassignDevice
    rw [found]
    exact if_neg (not_not.mpr owner)
  unfold callStep call vmUnassignPptdev
  dsimp only
  rw [ran]
  dsimp only
  by_cases left : pptAssignedDevices v ((s.handOver d none).setOwner bus slot func none) = 0
  · rw [if_pos left, if_pos left]
    cases vmIommuModify v false ((s.handOver d none).setOwner bus slot func none) <;> rfl
  · rw [if_neg left, if_neg left]

theorem unassign_goes (layout : Layout base) (settled : Settled base inUse s) (v bus slot func : Nat) :
    ∃ s' use', callStep s (.unassign v bus slot func) = .ok s' ∧ Settled base use' s' := by
  cases found : pptFind bus slot func s with
  | none =>
    refine ⟨s, inUse, unassign_refused .enoent (by simp) ?_, settled⟩
    unfold pptUnassignDevice
    rw [found]
  | some d =>
    by_cases owner : d.vm = some v
    · have member := (find_place found).1
      have handed := owner_changes settled.owned found none
      have mapped : Mapped base inUse ((s.handOver d none).setOwner bus slot func none) :=
        ⟨settled.mapped.maps, settled.mapped.domain, settled.mapped.writable, settled.mapped.inside,
          settled.mapped.apart, settled.mapped.guest, settled.mapped.host, settled.mapped.avail,
          settled.mapped.some_domain⟩
      have used : inUse v = true := (settled.owns v).mpr ⟨d, member, owner⟩
      have others : ∀ w, w ≠ v →
          (inUse w = true ↔ Owns ((s.handOver d none).setOwner bus slot func none) w) := by
        intro w other
        rw [settled.owns w, show Owns ((s.handOver d none).setOwner bus slot func none) w ↔
          Owns (s.setOwner bus slot func none) w from Iff.rfl, owns_changes settled.owned found]
        constructor
        · rintro ⟨e, inside, owns⟩
          refine .inr ⟨e, inside, fun this => other ?_, owns⟩
          rw [this, owner] at owns
          exact (Option.some.inj owns).symm
        · rintro (never | ⟨e, inside, -, owns⟩)
          · cases never
          · exact ⟨e, inside, owns⟩
      rw [unassign_owned found owner]
      by_cases left : pptAssignedDevices v ((s.handOver d none).setOwner bus slot func none) = 0
      · rw [if_pos left]
        obtain ⟨dom, there⟩ := Option.ne_none_iff_exists'.mp (mapped.domain v used)
        obtain ⟨s', ran, mapped', same⟩ := @modify_goes _ _ _ v false layout mapped used dom there
          (mapped.writable v used)
        refine ⟨s', _, ran, same_owned same handed, mapped', fun w => ?_⟩
        have owns : Owns s' w ↔ Owns ((s.handOver d none).setOwner bus slot func none) w := by
          unfold Owns
          rw [same.devs]
        rw [owns]
        by_cases this : w = v
        · rw [this, Function.update_self]
          exact iff_of_false (by simp) (assigned_zero.mp left)
        · rw [Function.update_of_ne this]
          exact others w this
      · rw [if_neg left]
        refine ⟨_, inUse, rfl, handed, mapped, fun w => ?_⟩
        by_cases this : w = v
        · rw [this]
          exact iff_of_true used (not_not.mp fun noDomain => left (assigned_zero.mpr noDomain))
        · exact others w this
    · refine ⟨s, inUse, unassign_refused .ebusy (by simp) ?_, settled⟩
      unfold pptUnassignDevice
      rw [found]
      exact if_pos owner

theorem later_assign (settled : Settled base inUse s) (owns : Owns s v) :
    (InOrder s (.assign v bus slot func) →
      ∃ s' use', callStep s (.assign v bus slot func) = .ok s' ∧ Settled base use' s') ∧
    (¬ InOrder s (.assign v bus slot func) →
      ∃ fault, callStep s (.assign v bus slot func) = .error fault) := by
  have some_ : pptAssignedDevices v s ≠ 0 := fun noDomain => assigned_zero.mp noDomain owns
  have used := (settled.owns v).mpr owns
  have direct : vmAssignPptdev v bus slot func s = pptAssignDevice v bus slot func s := if_neg some_
  unfold InOrder callStep call
  dsimp only
  rw [if_neg some_, direct]
  refine ⟨fun order => ?_, fun bad => ?_⟩
  · by_cases free : ∃ d, pptFind bus slot func s = some d ∧ d.vm = none
    · obtain ⟨d, found, unowned⟩ := free
      obtain ⟨s', ran, settled'⟩ := assign_goes settled.owned settled.mapped used
        (fun w _ => settled.owns w) found unowned ((order d found).2 unowned)
      rw [ran]
      exact ⟨s', inUse, rfl, settled'⟩
    · obtain ⟨error, ran⟩ := @assign_refused s v bus slot func fun d found =>
        ⟨fun unowned => free ⟨d, found, unowned⟩, (order d found).1⟩
      rw [ran]
      exact ⟨s, inUse, rfl, settled⟩
  · obtain ⟨d, bad⟩ := not_forall.mp bad
    obtain ⟨found, bad⟩ := Classical.not_imp.mp bad
    have panics : ∃ fault, pptAssignDevice v bus slot func s = .error fault := by
      by_cases mine : d.vm = some v
      · exact assign_panics settled.owned found (.inr mine)
          (.inl ⟨mine, settled.mapped.domain v used⟩)
      · obtain ⟨unowned, scope⟩ := Classical.not_imp.mp fun fits => bad ⟨mine, fits⟩
        exact assign_panics settled.owned found (.inl unowned) (.inr (Bool.eq_false_iff.mpr scope))
    obtain ⟨fault, ran⟩ := panics
    rw [ran]
    exact ⟨fault, rfl⟩

theorem first_in_order (idle : ¬ Owns s v) : InOrder s (.assign v bus slot func) ↔
    (s.avail = true → (s.vms v).iommu = none ∧ Writable (s.vms v).maps ∧
      (FreeAt bus slot func s ∨ TakenAt bus slot func s ∧ ∀ g h, ¬ WiredPage (s.vms v).maps g h)) := by
  unfold InOrder
  dsimp only
  rw [if_pos (assigned_zero.mpr idle)]

theorem assign_unavailable (settled : Settled base inUse s) (off : s.avail = false) :
    callStep s (.assign v bus slot func) = .ok s := by
  have noDomain := settled.mapped.avail off
  have idle : ¬ Owns s v := fun owns => settled.mapped.domain v ((settled.owns v).mpr owns) (noDomain v)
  unfold callStep call vmAssignPptdev iommuCreateDomain
  dsimp only
  rw [if_pos (assigned_zero.mpr idle), if_neg (not_not.mpr (noDomain v)),
    if_neg (fun on => by rw [off] at on; cases on)]

section
variable (layout : Layout base) (settled : Settled base inUse s)
include layout settled

theorem first_assign_step (idle : ¬ Owns s v) (order : InOrder s (.assign v bus slot func)) :
    ∃ s' use', callStep s (.assign v bus slot func) = .ok s' ∧ Settled base use' s' := by
  cases avail : s.avail with
  | false => exact ⟨s, inUse, assign_unavailable settled avail, settled⟩
  | true =>
    obtain ⟨none_yet, writable, places⟩ := (first_in_order idle).mp order avail
    rw [settled.mapped.maps v, writable_flagged] at writable
    obtain ⟨t, direct, mapped, owned, devs⟩ := first_assign layout settled idle avail none_yet writable
    have finds : pptFind bus slot func t = pptFind bus slot func s := by
      unfold pptFind
      rw [devs]
    have others : ∀ w, w ≠ v → (Function.update inUse v true w = true ↔ Owns t w) := by
      intro w other
      rw [Function.update_of_ne other, settled.owns w]
      unfold Owns
      rw [devs]
    unfold callStep call
    dsimp only
    rw [direct]
    obtain ⟨d, found, free, scope⟩ | ⟨taken, empty⟩ := places
    · obtain ⟨s', ran, settled'⟩ := assign_goes owned mapped (Function.update_self _ _ _) others
        (finds.trans found) free scope
      rw [ran]
      exact ⟨s', _, rfl, settled'⟩
    · have absent : ∀ d ∈ s.devs, d.vm ≠ some v := fun d member owner => idle ⟨d, member, owner⟩
      obtain ⟨error, ran⟩ := @assign_refused t v bus slot func fun d found => by
        rw [finds] at found
        exact ⟨taken d found, absent d (find_place found).1⟩
      rw [ran]
      have nothing : ∀ g h, ¬ WiredPage (base v) g h := by
        intro g h page
        refine empty g h ?_
        rw [settled.mapped.maps v, wired_flagged]
        exact page
      refine ⟨t, _, rfl, owned, mapped_empty mapped nothing, fun w => ?_⟩
      by_cases same : w = v
      · rw [same, Function.update_self]
        refine iff_of_false (by simp) ?_
        rintro ⟨d, member, owner⟩
        exact idle ⟨d, devs ▸ member, owner⟩
      · rw [Function.update_of_ne same]
        exact others w same

theorem first_assign_fails (idle : ¬ Owns s v) (bad : ¬ InOrder s (.assign v bus slot func)) :
    ¬ KeepsSound s (.assign v bus slot func) := by
  rintro ⟨s', ran, sound⟩
  rw [first_in_order idle] at bad
  obtain ⟨avail, bad⟩ := Classical.not_imp.mp bad
  have before : inUse v = false := Bool.eq_false_iff.mpr fun used => idle ((settled.owns v).mp used)
  by_cases none_yet : (s.vms v).iommu = none
  · by_cases writable : Writable (base v)
    · obtain ⟨t, direct, mapped, owned, devs⟩ :=
        first_assign layout settled idle avail none_yet writable
      have finds : pptFind bus slot func t = pptFind bus slot func s := by
        unfold pptFind
        rw [devs]
      have fits : Writable (s.vms v).maps := by
        rw [settled.mapped.maps v, writable_flagged]
        exact writable
      have absent : ∀ d ∈ s.devs, d.vm ≠ some v := fun d member owner => idle ⟨d, member, owner⟩
      have places := not_or.mp fun places => bad ⟨none_yet, fits, places⟩
      unfold callStep call at ran
      dsimp only at ran
      rw [direct] at ran
      by_cases taken : TakenAt bus slot func s
      · obtain ⟨g, rest⟩ := not_forall.mp fun empty => places.2 ⟨taken, empty⟩
        obtain ⟨h, page⟩ := not_forall.mp rest
        replace page := not_not.mp page
        rw [settled.mapped.maps v, wired_flagged] at page
        obtain ⟨error, refused⟩ := @assign_refused t v bus slot func fun d found => by
          rw [finds] at found
          exact ⟨taken d found, absent d (find_place found).1⟩
        rw [refused] at ran
        cases ran
        have used : Function.update inUse v true v = true := Function.update_self _ _ _
        obtain ⟨dom, there⟩ := Option.ne_none_iff_exists'.mp (mapped.domain v used)
        have both := (sound.pages v g h (by rw [mapped.maps v, wired_flagged]; exact page)).mp
          ⟨⟨dom, there, (mapped.guest v dom there g h).mpr ⟨used, page⟩⟩, by
            rw [mapped.host v g h page, used]
            rfl⟩
        obtain ⟨d, member, owner⟩ := both
        exact absent d (devs ▸ member) owner
      · obtain ⟨d, here⟩ := not_forall.mp taken
        obtain ⟨found, free⟩ := Classical.not_imp.mp here
        replace free := not_not.mp free
        have scope : d.inScope = false :=
          Bool.eq_false_iff.mpr fun scope => places.1 ⟨d, found, free, scope⟩
        obtain ⟨fault, panics⟩ := assign_panics owned (finds.trans found) (.inl free) (.inr scope)
        rw [panics] at ran
        cases ran
    · obtain ⟨fault, failed⟩ := modify_fails layout (create_mapped settled.mapped none_yet avail) before
        writable
      unfold callStep call vmAssignPptdev iommuCreateDomain at ran
      dsimp only at ran
      rw [if_pos (assigned_zero.mpr idle), if_neg (not_not.mpr none_yet), if_pos avail] at ran
      dsimp only at ran
      rw [failed] at ran
      cases ran
  · unfold callStep call vmAssignPptdev at ran
    dsimp only at ran
    rw [if_pos (assigned_zero.mpr idle), if_pos none_yet] at ran
    cases ran

theorem call_step (c : Call) :
    (InOrder s c → ∃ s' use', callStep s c = .ok s' ∧ Settled base use' s') ∧
      (¬ InOrder s c → ¬ KeepsSound s c) := by
  cases c with
  | unassign v bus slot func =>
    exact ⟨fun _ => unassign_goes layout settled v bus slot func, fun never => absurd trivial never⟩
  | assign v bus slot func =>
    by_cases owns : Owns s v
    · obtain ⟨goes, panics⟩ := @later_assign base inUse s v bus slot func settled owns
      refine ⟨goes, ?_⟩
      rintro bad ⟨s', ran, -⟩
      obtain ⟨fault, failed⟩ := panics bad
      rw [failed] at ran
      cases ran
    · exact ⟨first_assign_step layout settled owns, first_assign_fails layout settled owns⟩

end

/-- The host before the first call: no guest has a domain, the host's maps each page to itself, and
    no device has an owner or a context entry. -/
structure Booted (base : Nat → List MemMap) (s : Host) : Prop where
  places : ∀ d ∈ s.devs, ∀ d' ∈ s.devs, d.place = d'.place → d = d'
  unowned : ∀ d ∈ s.devs, d.vm = none ∧ s.ctx (pciGetRid d) = none
  maps : ∀ v, (s.vms v).maps = flagged false (base v) ∧ (s.vms v).iommu = none
  host : ∀ v g h, WiredPage (base v) g h → s.tables 0 h = some h
  some_domain : 0 < s.ndomains

theorem booted_settled (booted : Booted base s) : Settled base (fun _ => false) s := by
  have noDomain := fun v => (booted.maps v).2
  refine ⟨⟨booted.places, fun d member => ?_⟩, ⟨fun v => (booted.maps v).1, fun v never => ?_,
    fun v never => ?_, fun v dom here => ?_, fun v w dom here _ => ?_,
    fun v dom here => ?_, fun v g h page => booted.host v g h page, fun _ => noDomain,
    booted.some_domain⟩, fun v => ?_⟩
  · obtain ⟨free, entry⟩ := booted.unowned d member
    rw [entry, free]
    rfl
  · cases never
  · cases never
  · rw [noDomain] at here
    cases here
  · rw [noDomain] at here
    cases here
  · rw [noDomain] at here
    cases here
  · refine iff_of_false (by simp) ?_
    rintro ⟨d, member, owner⟩
    rw [(booted.unowned d member).1] at owner
    cases owner

/-- In a run every call comes back with owners, context entries and domains in step just where every
    call is in order. -/
theorem ownership_kept (layout : Layout base) (booted : Booted base s) (calls : List Call) :
    AlongAttempts callStep KeepsSound s calls ↔ AlongAttempts callStep InOrder s calls := by
  refine @along_attempts_iff_of_invariant _ _ _ _ (fun s => ∃ inUse, Settled base inUse s) _ _ ?_ ?_ calls s
    ⟨_, booted_settled booted⟩
  · rintro s c s' ⟨inUse, settled⟩ order ran
    obtain ⟨t, use', goes, settled'⟩ := (call_step layout settled c).1 order
    rw [goes] at ran
    cases ran
    exact ⟨use', settled'⟩
  · rintro s c ⟨inUse, settled⟩
    obtain ⟨goes, fails⟩ := call_step layout settled c
    constructor
    · exact fun keeps => not_not.mp fun bad => fails bad keeps
    · intro order
      obtain ⟨s', use', ran, settled'⟩ := goes order
      exact ⟨s', ran, settled_sound settled'⟩

def onePage (v : Nat) : List MemMap :=
  if v = 0 then [⟨0, 1, true, true, true, false, fun _ => 7⟩] else []

local instance buses_nonzero : NeZero 256 := ⟨by decide⟩

local instance device_slots_nonzero : NeZero 32 := ⟨by decide⟩

local instance functions_nonzero : NeZero 8 := ⟨by decide⟩

def twoDevices : Host :=
  { vms := fun v => ⟨onePage v, none⟩
    devs := [⟨0, 3, 0, true, none⟩, ⟨0, 4, 0, true, none⟩]
    avail := true
    ndomains := 1
    tables := fun dom h => if dom = 0 then some h else none
    ctx := fun _ => none }

theorem one_page_only {v : Nat} {mm : MemMap} (member : mm ∈ onePage v) :
    v = 0 ∧ mm = ⟨0, 1, true, true, true, false, fun _ => 7⟩ := by
  unfold onePage at member
  split at member
  · next zero => exact ⟨zero, List.mem_singleton.mp member⟩
  · cases member

theorem one_page_layout : Layout onePage := by
  constructor
  · intro v m member m' member' g _ _ _ _
    rw [(one_page_only member).2, (one_page_only member').2]
  · rintro v w g g' h ⟨mm, member, -⟩ ⟨mm', member', -⟩
    rw [(one_page_only member).1, (one_page_only member').1]

theorem two_devices_booted : Booted onePage twoDevices where
  places := by
    intro d member d' member' same
    obtain rfl | rfl : d = ⟨0, 3, 0, true, none⟩ ∨ d = ⟨0, 4, 0, true, none⟩ := by
      simpa [twoDevices] using member
    all_goals
      obtain rfl | rfl : d' = ⟨0, 3, 0, true, none⟩ ∨ d' = ⟨0, 4, 0, true, none⟩ := by
        simpa [twoDevices] using member'
      all_goals first | rfl | cases same
  unowned := by
    intro d member
    refine ⟨?_, rfl⟩
    obtain rfl | rfl : d = ⟨0, 3, 0, true, none⟩ ∨ d = ⟨0, 4, 0, true, none⟩ := by
      simpa [twoDevices] using member
    · rfl
    · rfl
  maps v := by
    refine ⟨?_, rfl⟩
    change onePage v = flagged false (onePage v)
    unfold onePage
    split <;> rfl
  host v g h _ := rfl
  some_domain := by decide

theorem first_assign_in_order (idle : pptAssignedDevices v s = 0)
    (none_yet : (s.vms v).iommu = none) (writable : Writable (s.vms v).maps)
    (found : pptFind bus slot func s = some d) (free : d.vm = none) (scope : d.inScope = true) :
    InOrder s (.assign v bus slot func) := by
  unfold InOrder
  dsimp only
  rw [if_pos idle]
  exact fun _ => ⟨none_yet, writable, .inl ⟨d, found, free, scope⟩⟩

theorem later_assign_in_order (busy : pptAssignedDevices v s ≠ 0)
    (found : pptFind bus slot func s = some d) (free : d.vm = none) (scope : d.inScope = true) :
    InOrder s (.assign v bus slot func) := by
  unfold InOrder
  dsimp only
  rw [if_neg busy]
  intro e here
  obtain rfl : d = e := Option.some.inj (found.symm.trans here)
  rw [free]
  exact ⟨(Option.some_ne_none v).symm, fun _ => scope⟩

theorem ownership_kept_two : AlongAttempts callStep KeepsSound twoDevices
      [.assign 0 0 3 0, .assign 0 0 4 0, .unassign 0 0 3 0, .unassign 0 0 4 0] := by
  refine (ownership_kept one_page_layout two_devices_booted _).mpr ?_
  refine along_attempts_cons (first_assign_in_order rfl rfl (by decide) rfl rfl rfl) rfl ?_
  refine along_attempts_cons (later_assign_in_order (by decide) rfl rfl rfl) rfl ?_
  refine along_attempts_cons trivial rfl ?_
  exact along_attempts_cons trivial rfl trivial

theorem reassignment_asserts : ¬ AlongAttempts callStep KeepsSound twoDevices
      [.assign 0 0 3 0, .unassign 0 0 3 0, .assign 0 0 3 0] := by
  rintro ⟨-, -, ⟨s, ran, -⟩, -⟩
  cases ran

end
end Passthru
