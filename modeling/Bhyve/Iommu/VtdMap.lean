import Mathlib.Algebra.GroupWithZero.Nat
import Bhyve.Lib.StepRuns
import Bhyve.Iommu.Vtd

namespace Vtd
open RadixTables StepRuns List

theorem pte_child_eq (e : Nat) : pteChild e = e / 4096 % 2 ^ 40 := by
  have mask : pteAddrM >>> 12 = 2 ^ 40 - 1 := by decide
  have shifted : ∀ x : Nat, x / 4096 = x >>> 12 := fun x => (Nat.shiftRight_eq_div_pow x 12).symm
  unfold pteChild
  rw [shifted, shifted, Nat.shiftRight_and_distrib, mask, Nat.and_two_pow_sub_one_eq_mod]

theorem pte_frame (x : Nat) : (x ||| pteRd ||| pteWr) / 4096 = x / 4096 := by
  have shifted : ∀ x : Nat, x / 4096 = x >>> 12 := fun x => (Nat.shiftRight_eq_div_pow x 12).symm
  rw [shifted, shifted, Nat.shiftRight_or_distrib, Nat.shiftRight_or_distrib]
  have low : pteRd >>> 12 = 0 ∧ pteWr >>> 12 = 0 := by decide
  rw [low.1, low.2, Nat.or_zero, Nat.or_zero]

theorem pte_present (x : Nat) : (x ||| pteRd ||| pteWr) &&& (pteRd ||| pteWr) ≠ 0 := by
  intro never
  have bit := congrArg (Nat.testBit · 0) never
  simp [pteRd, pteWr] at bit

theorem link_small (f : Nat) : pteLink f &&& pteSuperpage = 0 := by
  refine Nat.eq_of_testBit_eq fun i => ?_
  have high : (f * 2 ^ 12).testBit 7 = false := by
    rw [Nat.testBit_mul_two_pow]
    rfl
  have mask : pteSuperpage = 2 ^ 7 := by decide
  rw [Nat.testBit_and, mask, Nat.testBit_two_pow, Nat.zero_testBit]
  by_cases seven : 7 = i
  · subst seven
    have bits : (pteRd.testBit 7) = false ∧ pteWr.testBit 7 = false := by decide
    unfold pteLink
    rw [Nat.testBit_or, Nat.testBit_or, bits.1, bits.2]
    change (((f * 2 ^ 12).testBit 7 || false || false) && decide (7 = 7)) = false
    rw [high]
    rfl
  · rw [decide_eq_false seven, Bool.and_false]

theorem link_present (f : Nat) : pteLink f &&& (pteRd ||| pteWr) ≠ 0 := pte_present (f * 4096)

theorem link_valid {f : Nat} (small : f < 2 ^ 40) (l : Nat) : pteFormat.Valid l f := by
  refine ⟨fun never => ?_, ?_, ?_⟩
  · have present := link_present f
    change pteLink f = 0 at never
    rw [never, Nat.zero_and] at present
    exact present rfl
  · change pteChild (pteLink f) = f
    unfold pteLink
    rw [pte_child_eq, pte_frame, Nat.mul_div_cancel _ (by decide), Nat.mod_eq_of_lt small]
  · change pteDown (pteLink f) = true
    unfold pteDown
    rw [link_small, decide_eq_true (link_present f)]
    rfl

def readPte (e : Nat) : Option Nat :=
  if e &&& (pteRd ||| pteWr) = 0 then none else some (pteChild e)

theorem read_zero : readPte 0 = none := by decide

theorem read_leaf (hpa : Nat) : readPte (leafValue hpa false false) = some (hpa % 2 ^ 52 / 4096) := by
  have value : leafValue hpa false false = hpa ||| pteRd ||| pteWr := rfl
  unfold readPte
  rw [value, if_neg (pte_present hpa), pte_child_eq, pte_frame]
  refine congrArg some ?_
  omega

section
variable {m : Nat → Nat → Nat} {node : Nat → Nat → Option Nat} {top root g : Nat}

theorem hw_walk_eq (tree : Tree pteFormat 512 top root m node) (inside : g < 512 ^ (top + 1)) :
    hwWalk m g top root = readPte (leafEntry 512 m node g) := by
  refine tree_walk tree inside (hwWalk m g) readPte (fun p => rfl) ?_ ?_
  · intro l p missing
    unfold index at missing
    unfold hwWalk
    dsimp only
    rw [missing, Nat.zero_and, if_pos rfl, read_zero]
  · intro l p f _ valid entry
    unfold index at entry
    change _ = pteLink f at entry
    have child : pteChild (pteLink f) = f := valid.child
    rw [hwWalk, entry, if_neg (link_present f), if_neg (not_not.mpr (link_small f)), child]

theorem hw_leaf_eq (tree : Tree pteFormat 512 top root m node) (inside : g < 512 ^ (top + 1)) :
    hwLeaf m g top root = (node 0 (g / 512)).map fun f => (f, g % 512) := by
  refine tree_descend tree inside (hwLeaf m g) (Option.map fun f => (f, g % 512)) (fun p => rfl) ?_ ?_
  · intro l p missing
    unfold index at missing
    unfold hwLeaf
    dsimp only
    rw [missing, Nat.zero_and, if_pos rfl]
    rfl
  · intro l p f _ valid entry
    unfold index at entry
    change _ = pteLink f at entry
    have child : pteChild (pteLink f) = f := valid.child
    rw [hwLeaf, entry, if_neg (link_present f), if_neg (not_not.mpr (link_small f)), child]

theorem hw_leaf_apart (tree : Tree pteFormat 512 top root m node) {g' : Nat}
    (inside : g < 512 ^ (top + 1)) (inside' : g' < 512 ^ (top + 1)) {slot : Nat × Nat}
    (here : hwLeaf m g top root = some slot) (there : hwLeaf m g' top root = some slot) : g = g' := by
  rw [hw_leaf_eq tree inside] at here
  rw [hw_leaf_eq tree inside'] at there
  obtain ⟨f, page, rfl⟩ := Option.map_eq_some_iff.mp here
  obtain ⟨f', page', same⟩ := Option.map_eq_some_iff.mp there
  obtain ⟨rfl, offset⟩ := Prod.mk.inj same
  exact leaf_apart tree page page' offset.symm

end

section
variable {s s' : Mem} {node : Nat → Nat → Option Nat} {top root gpa hpa len : Nat}

theorem gpa_index (gpa n : Nat) : gpa / 2 ^ (12 + n * 9) % 512 = index 512 n (gpa / 4096) := by
  unfold index
  rw [Nat.pow_add, ← Nat.div_div_eq_div_mul, Nat.mul_comm n 9, Nat.pow_mul]

theorem malloc_waits {fault : Fault} (never : malloc s = .error fault) :
    fault = .waits ∧ s.free.length = 0 := by
  unfold malloc at never
  split at never
  · next empty =>
    cases never
    exact ⟨rfl, by rw [empty]; rfl⟩
  · cases never

theorem malloc_goes {f : Nat} {s₁ : Mem} (got : malloc s = .ok (f, s₁)) :
    s.free = f :: s₁.free ∧ s₁.entry = clear f s.entry := by
  unfold malloc at got
  split at got
  · cases got
  · next pages =>
    cases got
    exact ⟨pages, rfl⟩

theorem walk_goes (n : Nat) : ∀ {c : Cursor} {s : Mem} {node}, Tables pteFormat 512 top root s.entry s.free node →
    node n (gpa / 4096 / 512 ^ (n + 1)) = some c.ptp →
    (∃ c' s' node', vtdWalk 12 gpa (n + 1) c s = .ok (c', s') ∧
        c' = ⟨c'.ptp, 12, gpa / 4096 % 512, false⟩ ∧ Tables pteFormat 512 top root s'.entry s'.free node' ∧
        node' 0 (gpa / 4096 / 512) = some c'.ptp ∧
        (∀ g, leafEntry 512 s'.entry node' g = leafEntry 512 s.entry node g) ∧
        s.free.length ≤ s'.free.length + n) ∨
      vtdWalk 12 gpa (n + 1) c s = .error .waits ∧ s.free.length < n := by
  induction n with
  | zero =>
    intro c s node tables here
    rw [Nat.zero_add, Nat.pow_one] at here
    exact .inl ⟨_, s, node, rfl, rfl, tables, here, fun _ => rfl, Nat.le_refl _⟩
  | succ n ih =>
    intro c s node tables here
    have small : index 512 (n + 1) (gpa / 4096) < 512 := Nat.mod_lt _ (by decide)
    have place := prefix_step 512 n (gpa / 4096)
    rw [vtdWalk]
    dsimp only
    rw [gpa_index, if_neg (show ¬ 12 + (n + 1) * 9 ≤ 12 by omega)]
    by_cases missing : s.entry c.ptp (index 512 (n + 1) (gpa / 4096)) = 0
    · rw [if_pos missing]
      cases got : malloc s with
      | error fault =>
        obtain ⟨rfl, empty⟩ := malloc_waits got
        exact .inr ⟨rfl, by omega⟩
      | ok r =>
        obtain ⟨f, s₁⟩ := r
        obtain ⟨pages, entry⟩ := malloc_goes got
        rw [pages] at tables
        obtain ⟨tables', same⟩ := tables_grow tables here small missing
        have low := (tables.tree.within here).1
        have valid := (tables.fresh f mem_cons_self).1 n (by omega)
        have child : pteChild (write c.ptp (index 512 (n + 1) (gpa / 4096)) (pteLink f) s₁.entry c.ptp
            (index 512 (n + 1) (gpa / 4096))) = f := by
          rw [write_at, if_pos rfl]
          exact valid.child
        have grown_ : grown pteFormat n c.ptp (index 512 (n + 1) (gpa / 4096)) f s.entry =
            write c.ptp (index 512 (n + 1) (gpa / 4096)) (pteLink f) s₁.entry := by
          rw [entry]
          rfl
        rw [grown_] at tables' same
        dsimp only
        rw [child, pages]
        rw [length_cons]
        have there := add_node_self n (512 * (gpa / 4096 / 512 ^ (n + 2)) +
          index 512 (n + 1) (gpa / 4096)) f node
        rw [place] at there tables' same
        obtain ⟨c', s', node', ran, cursor, tables'', page, leaves, rest⟩ | ⟨ran, short⟩ :=
          @ih ⟨f, _, _, _⟩ { s₁ with entry := write c.ptp (index 512 (n + 1) (gpa / 4096)) (pteLink f) s₁.entry }
            _ tables' there
        · exact .inl ⟨c', s', node', ran, cursor, tables'', page,
            fun g => (leaves g).trans (same g), by dsimp only at rest; omega⟩
        · exact .inr ⟨ran, by dsimp only at short; omega⟩
    · rw [if_neg missing]
      obtain ⟨f, below, entry⟩ := below_link tables.tree here small missing
      change _ = pteLink f at entry
      have child : pteChild (pteLink f) = f := (tables.tree.valid below).child
      rw [place] at below
      rw [entry, child]
      obtain ⟨c', s', node', ran, cursor, tables', page, leaves, rest⟩ | ⟨ran, short⟩ :=
        @ih ⟨f, _, _, _⟩ _ _ tables below
      · exact .inl ⟨c', s', node', ran, cursor, tables', page, leaves, by omega⟩
      · exact .inr ⟨ran, by omega⟩

def Maps (dom : Domain) (map : Nat → Option Nat) (s : Mem) : Prop :=
  ∃ node, Tables pteFormat 512 (dom.ptLevels - 1) dom.ptp s.entry s.free node ∧
    ∀ g, readPte (leafEntry 512 s.entry node g) = map g

theorem super_shift_none (gpa hpa len : Nat) : superShift 0 gpa hpa len 4 48 = 12 := by
  simp [superShift]

def target (remove : Bool) (hpa : Nat) : Option Nat :=
  if remove then none else some (hpa % 2 ^ 52 / 4096)

structure Range (dom : Domain) (gpa hpa len : Nat) : Prop where
  gpaAligned : gpa % 4096 = 0
  hpaAligned : hpa % 4096 = 0
  lenAligned : len % 4096 = 0
  within : gpa + len ≤ dom.maxaddr

/-- What vtd_create_domain gives: room for every page below maxaddr, and no super pages. -/
structure Roomy (dom : Domain) : Prop where
  levels : 0 < dom.ptLevels
  room : dom.maxaddr ≤ 4096 * 512 ^ dom.ptLevels
  narrow : dom.maxaddr ≤ 2 ^ 63
  plain : dom.spsmask = 0

variable {dom : Domain} {map : Nat → Option Nat} {remove : Bool}

theorem update_goes (roomy : Roomy dom) (range : Range dom gpa hpa len) (some_ : 0 < len)
    (maps : Maps dom map s) : (∃ s', vtdUpdateMapping dom gpa hpa len remove s = .ok (4096, s') ∧
        Maps dom (Function.update map (gpa / 4096) (target remove hpa)) s' ∧
        s.free.length ≤ s'.free.length + (dom.ptLevels - 1)) ∨
      vtdUpdateMapping dom gpa hpa len remove s = .error .waits ∧
        s.free.length < dom.ptLevels - 1 := by
  obtain ⟨node, tables, reads⟩ := maps
  have within := range.within
  have narrow := roomy.narrow
  have whole : (gpa + len) % 2 ^ 64 = gpa + len := Nat.mod_eq_of_lt (by omega)
  obtain ⟨n, levels⟩ : ∃ n, dom.ptLevels = n + 1 :=
    Nat.exists_eq_succ_of_ne_zero (by have := roomy.levels; omega)
  have inside : gpa / 4096 / 512 ^ (n + 1) = 0 := by
    have room := roomy.room
    rw [levels] at room
    exact Nat.div_eq_of_lt (by omega)
  have top : dom.ptLevels - 1 = n := by omega
  rw [top] at tables ⊢
  unfold vtdUpdateMapping
  rw [whole, if_neg (by omega), if_neg (by omega), if_neg (not_not.mpr range.gpaAligned),
    if_neg (not_not.mpr range.hpaAligned), if_neg (not_not.mpr range.lenAligned), roomy.plain, super_shift_none,
    levels]
  obtain ⟨c', s', node', ran, cursor, tables', page, leaves, rest⟩ | ⟨ran, short⟩ :=
    @walk_goes n dom.ptp gpa n ⟨dom.ptp, 0, 0, false⟩ s node tables
      (by rw [inside]; exact tables.tree.root)
  · refine .inl ⟨{ s' with entry := write c'.ptp (gpa / 4096 % 512) (leafValue hpa remove false) s'.entry },
      ?_, ⟨node', ?_, fun g => ?_⟩, rest⟩
    · rw [ran, cursor]
      exact if_neg (not_not.mpr range.gpaAligned)
    · rw [top]
      exact tables_write tables' page _ _
    · rw [leaf_write tables'.tree page, Function.update_apply, leaves, ← reads g]
      split
      · cases remove with
        | true => exact read_zero
        | false => exact read_leaf hpa
      · rfl
  · rw [ran]
    exact .inr ⟨rfl, short⟩

def paint (remove : Bool) (gpa hpa len : Nat) (map : Nat → Option Nat) (g : Nat) : Option Nat :=
  if gpa / 4096 ≤ g ∧ g < (gpa + len) / 4096 then
    target remove (hpa + (g - gpa / 4096) * 4096)
  else map g

theorem wraps_high (x y : Nat) : (x % 2 ^ 64 + y) % 2 ^ 52 = (x + y) % 2 ^ 52 := by
  have divides : 2 ^ 52 ∣ 2 ^ 64 := Nat.pow_dvd_pow 2 (by decide)
  rw [Nat.add_mod, Nat.mod_mod_of_dvd _ divides, ← Nat.add_mod]

theorem target_next (remove : Bool) (hpa i : Nat) : target remove (hpa + (i + 1) * 4096) =
    target remove ((if remove then hpa else (hpa + 4096) % 2 ^ 64) + i * 4096) := by
  cases remove with
  | true =>
    unfold target
    rw [if_pos rfl, if_pos rfl]
  | false =>
    have same : hpa + (i + 1) * 4096 = hpa + 4096 + i * 4096 := by omega
    unfold target
    rw [if_neg Bool.false_ne_true, if_neg Bool.false_ne_true, if_neg Bool.false_ne_true, same,
      wraps_high]

theorem paint_step {k : Nat} (aligned : gpa % 4096 = 0) :
    paint remove gpa hpa (4096 * (k + 1)) map =
      paint remove (gpa + 4096) (if remove then hpa else (hpa + 4096) % 2 ^ 64) (4096 * k)
        (Function.update map (gpa / 4096) (target remove hpa)) := by
  funext g
  unfold paint
  rw [Function.update_apply]
  by_cases first : g = gpa / 4096
  · subst first
    rw [if_pos (by omega), if_neg (by omega), if_pos rfl, Nat.sub_self, Nat.zero_mul, Nat.add_zero]
  · rw [if_neg first]
    by_cases covered : gpa / 4096 ≤ g ∧ g < (gpa + 4096 * (k + 1)) / 4096
    · rw [if_pos covered, if_pos (by omega)]
      obtain ⟨i, here⟩ : ∃ i, g - gpa / 4096 = i + 1 := ⟨g - gpa / 4096 - 1, by omega⟩
      have there : g - (gpa + 4096) / 4096 = i := by omega
      rw [here, there]
      exact target_next remove hpa i
    · rw [if_neg covered, if_neg (by omega)]

theorem loop_goes (roomy : Roomy dom) (k : Nat) : ∀ {turns gpa hpa : Nat} {map} {s : Mem},
    k ≤ turns → Range dom gpa hpa (4096 * k) → Maps dom map s →
    (∃ s', mappingLoop dom remove turns gpa hpa (4096 * k) s = .ok s' ∧
        Maps dom (paint remove gpa hpa (4096 * k) map) s' ∧
        s.free.length ≤ s'.free.length + k * (dom.ptLevels - 1)) ∨
      mappingLoop dom remove turns gpa hpa (4096 * k) s = .error .waits ∧
        s.free.length < k * (dom.ptLevels - 1) := by
  induction k with
  | zero =>
    intro turns gpa hpa map s _ _ maps
    refine .inl ⟨s, ?_, ?_, by omega⟩
    · unfold mappingLoop
      split <;> rfl
    · have same : paint remove gpa hpa (4096 * 0) map = map := by
        funext g
        unfold paint
        rw [if_neg (by omega)]
      rw [same]
      exact maps
  | succ k ih =>
    intro turns gpa hpa map s enough range maps
    obtain ⟨turns, rfl⟩ : ∃ t, turns = t + 1 := Nat.exists_eq_succ_of_ne_zero (by omega)
    have aligned := range.gpaAligned
    have host := range.hpaAligned
    have within := range.within
    have narrow := roomy.narrow
    rw [mappingLoop, if_neg (by omega)]
    rw [Nat.succ_mul k (dom.ptLevels - 1)]
    obtain ⟨s', ran, maps', rest⟩ | ⟨ran, short⟩ := 
      @update_goes s gpa hpa _ dom map remove roomy range (by omega) maps
    · rw [ran]
      dsimp only
      rw [Nat.mod_eq_of_lt (show gpa + 4096 < 2 ^ 64 by omega),
        show (4096 * (k + 1) + 2 ^ 64 - 4096) % 2 ^ 64 = 4096 * k by omega, paint_step aligned]
      have next : Range dom (gpa + 4096) (if remove then hpa else (hpa + 4096) % 2 ^ 64) (4096 * k) := by
        refine ⟨by omega, ?_, by omega, by omega⟩
        split <;> omega
      obtain ⟨s'', ran', maps'', rest'⟩ | ⟨ran', short⟩ := 
          @ih turns _ _ _ _ (by omega) next maps'
      · refine .inl ⟨s'', ran', maps'', ?_⟩
        omega
      · refine .inr ⟨ran', ?_⟩
        omega
    · rw [ran]
      refine .inr ⟨rfl, ?_⟩
      omega

end

section

theorem gaw_loop_covers {maxaddr left gaw addr w : Nat} (reached : left + gaw = 64)
    (high : addr ≤ 2 ^ 63) (last : addr ≤ 2 ^ gaw) (found : gawLoop maxaddr left gaw addr = some w) :
    maxaddr ≤ 2 ^ 63 ∧ maxaddr ≤ 2 ^ w ∧ w ≤ 64 := by
  induction left generalizing gaw addr with
  | zero =>
    unfold gawLoop at found
    split at found
    · cases found
    · cases found
      exact ⟨by omega, by omega, by omega⟩
  | succ left ih =>
    unfold gawLoop at found
    split at found
    · exact ih (by omega) (Nat.pow_le_pow_right (by decide) (by omega))
        (Nat.pow_le_pow_right (by decide) (by omega)) found
    · cases found
      exact ⟨by omega, by omega, by omega⟩

theorem adjusted_covers {gaw : Nat} (small : gaw ≤ 64) : gaw ≤ adjusted gaw := by
  have low := Int.tmod_lt_of_pos ((gaw : Int) - 12) (show (0 : Int) < 9 by decide)
  unfold adjusted
  dsimp only
  split <;> omega

theorem sagaw_loop_covers {supported agaw levels addrwidth : Nat} (left : Nat) : ∀ {i sagaw : Nat},
    sagaw ≤ 12 + 9 * (2 + i) → sagawLoop supported agaw left i sagaw = some (levels, addrwidth) →
    0 < levels ∧ agaw ≤ 12 + 9 * levels := by
  induction left with
  | zero =>
    intro i sagaw _ never
    cases never
  | succ left ih =>
    intro i sagaw small found
    unfold sagawLoop at found
    split at found
    · next fits =>
      cases found
      exact ⟨by omega, by omega⟩
    · exact ih (by omega) found

structure Supply (s : Mem) : Prop where
  nodup : s.free.Nodup
  small : ∀ f ∈ s.free, f < 2 ^ 40

variable {caps : List Nat} {maxaddr : Nat} {s s₁ : Mem} {dom : Domain}

theorem created_maps (supply : Supply s) (created : vtdCreateDomain caps maxaddr s = .ok (dom, s₁)) :
    Roomy dom ∧ dom.maxaddr = maxaddr ∧ Maps dom (fun _ => none) s₁ := by
  unfold vtdCreateDomain at created
  split at created
  · cases created
  split at created
  · cases created
  next gaw width =>
  dsimp only at created
  split at created
  · cases created
  next levels addrwidth found =>
  split at created
  · cases created
  next ptp s₂ got =>
  cases created
  obtain ⟨narrow, covers, small⟩ := gaw_loop_covers (by decide) (Nat.zero_le _) (Nat.zero_le _) width
  obtain ⟨some_, fits⟩ := sagaw_loop_covers 5 (by decide) found
  have wide := Nat.le_trans (adjusted_covers small) fits
  refine ⟨⟨some_, ?_, narrow, rfl⟩, rfl, ?_⟩
  · refine Nat.le_trans covers (Nat.le_trans (Nat.pow_le_pow_right (by decide) wide) ?_)
    rw [Nat.pow_add, Nat.pow_mul]
  · unfold malloc at got
    split at got
    · cases got
    next f rest pages =>
    cases got
    have nodup := supply.nodup
    have low := supply.small
    rw [pages] at nodup low
    refine ⟨addNode (levels - 1) 0 ptp fun _ _ => none,
      tables_root (by decide) nodup fun f' member l _ => link_valid (low f' member) l, fun g => ?_⟩
    change readPte (leafEntry 512 (clear ptp s.entry) _ g) = none
    rw [leaf_root, read_zero]

end

section
variable {dom : Domain} {s s' : Mem} {calls : List Call} {map : Nat → Option Nat}

def Call.covers (g : Nat) : Call → Bool
  | .create gpa _ len | .remove gpa len => decide (gpa / 4096 ≤ g) && decide (g < (gpa + len) / 4096)

def Call.target (g : Nat) : Call → Option Nat
  | .create gpa hpa _ => some ((hpa + (g - gpa / 4096) * 4096) % 2 ^ 52 / 4096)
  | .remove _ _ => none

def lastTarget (calls : List Call) (g : Nat) : Option Nat :=
  (calls.reverse.find? (Call.covers g)).bind (Call.target g)

def Call.Ok (dom : Domain) : Call → Prop
  | .create gpa hpa len => Range dom gpa hpa len
  | .remove gpa len => Range dom gpa 0 len

def Call.pages : Call → Nat
  | .create _ _ len | .remove _ len => len / 4096

def Call.change (map : Nat → Option Nat) (c : Call) (g : Nat) : Option Nat :=
  if c.covers g then c.target g else map g

theorem call_goes (roomy : Roomy dom) {c : Call} (ok : c.Ok dom) (maps : Maps dom map s) :
    (∃ s', call dom s c = .ok s' ∧ Maps dom (c.change map) s' ∧
        s.free.length ≤ s'.free.length + c.pages * (dom.ptLevels - 1)) ∨
      call dom s c = .error .waits ∧ s.free.length < c.pages * (dom.ptLevels - 1) := by
  cases c with
  | create gpa hpa len =>
    have aligned := ok.lenAligned
    obtain ⟨k, rfl⟩ : ∃ k, len = 4096 * k := ⟨len / 4096, by omega⟩
    have pages : (Call.create gpa hpa (4096 * k)).pages = k := Nat.mul_div_cancel_left k (by decide)
    have painted : (Call.create gpa hpa (4096 * k)).change map = paint false gpa hpa (4096 * k) map := by
      funext g
      unfold Call.change paint Call.covers
      simp only [Bool.and_eq_true, decide_eq_true_eq]
      rfl
    rw [pages, painted]
    exact loop_goes roomy k (by omega) ok maps
  | remove gpa len =>
    have aligned := ok.lenAligned
    obtain ⟨k, rfl⟩ : ∃ k, len = 4096 * k := ⟨len / 4096, by omega⟩
    have pages : (Call.remove gpa (4096 * k)).pages = k := Nat.mul_div_cancel_left k (by decide)
    have painted : (Call.remove gpa (4096 * k)).change map = paint true gpa 0 (4096 * k) map := by
      funext g
      unfold Call.change paint Call.covers
      simp only [Bool.and_eq_true, decide_eq_true_eq]
      rfl
    rw [pages, painted]
    exact loop_goes roomy k (by omega) ok maps

theorem last_target_cons (c : Call) (rest : List Call) (map : Nat → Option Nat) (g : Nat) :
    (match (c :: rest).reverse.find? (Call.covers g) with
      | none => map g
      | some d => d.target g) =
    match rest.reverse.find? (Call.covers g) with
      | none => c.change map g
      | some d => d.target g := by
  rw [reverse_cons, find?_append]
  cases rest.reverse.find? (Call.covers g) with
  | some d => rfl
  | none =>
    rw [Option.none_or, find?_singleton]
    unfold Call.change
    cases c.covers g <;> rfl

def pagesOf (calls : List Call) : Nat := (calls.map Call.pages).sum

theorem calls_go (roomy : Roomy dom) (calls : List Call) : ∀ {s : Mem} {map : Nat → Option Nat},
    (∀ c ∈ calls, c.Ok dom) → Maps dom map s →
    (∃ s', attempts (call dom) s calls = .ok s' ∧
        Maps dom (fun g => match calls.reverse.find? (Call.covers g) with
          | none => map g
          | some d => d.target g) s' ∧
        s.free.length ≤ s'.free.length + pagesOf calls * (dom.ptLevels - 1)) ∨
      attempts (call dom) s calls = .error .waits ∧
        s.free.length < pagesOf calls * (dom.ptLevels - 1) := by
  induction calls with
  | nil => exact fun _ maps => .inl ⟨_, rfl, maps, by omega⟩
  | cons c rest ih =>
    intro s map ok maps
    have total : pagesOf (c :: rest) * (dom.ptLevels - 1) =
        c.pages * (dom.ptLevels - 1) + pagesOf rest * (dom.ptLevels - 1) := by
      unfold pagesOf
      rw [map_cons, sum_cons, Nat.add_mul]
    rw [total]
    unfold attempts
    obtain ⟨s', ran, maps', count⟩ | ⟨ran, short⟩ := call_goes roomy (ok c mem_cons_self) maps
    · rw [ran]
      obtain ⟨s'', ran', maps'', count'⟩ | ⟨ran', short⟩ :=
        ih (fun d member => ok d (mem_cons_of_mem c member)) maps'
      · refine .inl ⟨s'', ran', ?_, by omega⟩
        simp only [last_target_cons]
        exact maps''
      · exact .inr ⟨ran', by omega⟩
    · rw [ran]
      exact .inr ⟨rfl, by omega⟩

/-- What the hardware makes of a domain's tables after a run of calls. -/
structure Denotes (dom : Domain) (calls : List Call) (s : Mem) : Prop where
  room : ∀ g, g * 4096 < dom.maxaddr → g < 512 ^ dom.ptLevels
  walk : ∀ g < 512 ^ dom.ptLevels,
    hwWalk s.entry g (dom.ptLevels - 1) dom.ptp = lastTarget calls g
  apart : ∀ g < 512 ^ dom.ptLevels, ∀ g' < 512 ^ dom.ptLevels, ∀ slot,
    hwLeaf s.entry g (dom.ptLevels - 1) dom.ptp = some slot →
      hwLeaf s.entry g' (dom.ptLevels - 1) dom.ptp = some slot → g = g'
  freed : (vtdFreePtp dom.ptp dom.ptLevels s.entry).2.Nodup ∧
    ∀ f, f ∈ (vtdFreePtp dom.ptp dom.ptLevels s.entry).2 ↔
      ∃ l, Reach pteFormat 512 (dom.ptLevels - 1) dom.ptp s.entry l f

theorem maps_denotes (roomy : Roomy dom) (maps : Maps dom (lastTarget calls) s) :
    Denotes dom calls s := by
  obtain ⟨node, tables, reads⟩ := maps
  have levels : dom.ptLevels - 1 + 1 = dom.ptLevels := Nat.sub_add_cancel roomy.levels
  have room := roomy.room
  constructor
  · intro g low
    omega
  · intro g inside
    rw [← levels] at inside
    rw [hw_walk_eq tables.tree inside, reads]
  · intro g inside g' inside' slot here there
    rw [← levels] at inside inside'
    exact hw_leaf_apart tables.tree inside inside' here there
  · obtain ⟨nodup, members⟩ := visit_reach tables.tree
    unfold vtdFreePtp
    rw [(release_eq nodup fun f _ => rfl).1]
    exact ⟨nodup, members⟩

def twoPages : List Call := [.create 0x1000 0x7000 0x2000, .remove 0x1000 0x1000]

end
end Vtd
