import Bhyve.Lib.StepRuns
import Bhyve.Iommu.Amdvi

namespace Amdvi
open RadixTables StepRuns Function List

section

theorem shifted (x n : Nat) : x / 2 ^ n = x >>> n := (Nat.shiftRight_eq_div_pow x n).symm

theorem pte_child_eq (e : Nat) : pteChild e = e / 2 ^ 12 % 2 ^ 40 := by
  have mask : ptMask >>> 12 = 2 ^ 40 - 1 := by decide
  change (e &&& ptMask) / 2 ^ 12 = _
  rw [shifted, shifted, Nat.shiftRight_and_distrib, mask, Nat.and_two_pow_sub_one_eq_mod]

theorem present_of_testBit {e : Nat} (bit : e.testBit 0 = true) : e &&& ptPresent ≠ 0 := by
  intro never
  have low : (e &&& ptPresent).testBit 0 = true := by
    rw [Nat.testBit_and, bit]
    decide
  rw [never] at low
  exact absurd low (by decide)

theorem link_present (l f : Nat) : pdLink l f &&& ptPresent ≠ 0 := by
  apply present_of_testBit
  unfold pdLink
  rw [Nat.testBit_or, Nat.testBit_or, Nat.testBit_or]
  have bit : ptPresent.testBit 0 = true := by decide
  rw [bit, Bool.or_true, Bool.true_or, Bool.true_or]

variable {l f : Nat}

theorem link_child (low : l ≤ 3) (small : f < 2 ^ 40) : pteChild (pdLink l f) = f := by
  have fields : ptPresent >>> 12 = 0 ∧ (ptRw >>> 12) % 2 ^ 40 = 0 := by decide
  have level : ((l + 1) * 2 ^ pdLevelShift) >>> 12 = 0 := by
    unfold pdLevelShift
    omega
  have frame : (f * 4096) >>> 12 = f := by
    omega
  rw [pte_child_eq]
  unfold pdLink
  rw [shifted, Nat.shiftRight_or_distrib, Nat.shiftRight_or_distrib, Nat.shiftRight_or_distrib, level,
    fields.1, frame, Nat.or_zero, Nat.or_zero, Nat.or_mod_two_pow, fields.2, Nat.or_zero,
    Nat.mod_eq_of_lt small]

theorem link_level (f : Nat) (low : l ≤ 3) : pdLink l f / 2 ^ pdLevelShift % 8 = l + 1 := by
  have fields : ptPresent >>> 9 = 0 ∧ (ptRw >>> 9) % 2 ^ 3 = 0 := by decide
  have level : ((l + 1) * 2 ^ pdLevelShift) >>> 9 = l + 1 := by
    unfold pdLevelShift
    omega
  have frame : ((f * 4096) >>> 9) % 2 ^ 3 = 0 := by
    omega
  change pdLink l f / 2 ^ 9 % 2 ^ 3 = l + 1
  unfold pdLink
  rw [shifted, Nat.shiftRight_or_distrib, Nat.shiftRight_or_distrib, Nat.shiftRight_or_distrib, level,
    fields.1, Nat.or_zero, Nat.or_mod_two_pow, Nat.or_mod_two_pow, frame, fields.2, Nat.or_zero,
    Nat.zero_or]
  omega

theorem link_valid (small : f < 2 ^ 40) (low : l ≤ 3) : pteFormat.Valid l f := by
  refine ⟨fun never => ?_, link_child low small, ?_⟩
  · have present := link_present l f
    change pdLink l f = 0 at never
    rw [never, Nat.zero_and] at present
    exact present rfl
  · exact decide_eq_true (link_present l f)

theorem valid_small (valid : pteFormat.Valid l f) : f < 2 ^ 40 := by
  have child : pteChild (pdLink l f) = f := valid.child
  rw [← child, pte_child_eq]
  exact Nat.mod_lt _ (by decide)

def readPte (e : Nat) : Option Nat := if e &&& ptPresent = 0 then none else some (pteChild e)

theorem read_zero : readPte 0 = none := by decide

def target (create : Bool) (hpa : Nat) : Option Nat :=
  if create then some (hpa % 2 ^ 52 / 4096) else none

theorem read_leaf (create : Bool) (hpa : Nat) : readPte (leafValue hpa create) = target create hpa := by
  cases create with
  | false => exact read_zero
  | true =>
    have fields : ptPresent >>> 12 = 0 ∧ (ptRw >>> 12) % 2 ^ 40 = 0 := by decide
    have value : leafValue hpa true = hpa ||| ptRw ||| ptPresent := rfl
    have present : (hpa ||| ptRw ||| ptPresent) &&& ptPresent ≠ 0 := by
      apply present_of_testBit
      have bit : ptPresent.testBit 0 = true := by decide
      rw [Nat.testBit_or, bit, Bool.or_true]
    unfold readPte target
    rw [value, if_neg present, if_pos rfl, pte_child_eq, shifted, Nat.shiftRight_or_distrib,
      Nat.shiftRight_or_distrib, fields.1, Nat.or_zero, Nat.or_mod_two_pow, fields.2, Nat.or_zero,
      ← shifted]
    refine congrArg some ?_
    omega

end

section
variable {m : Nat → Nat → Nat} {node : Nat → Nat → Option Nat} {root g : Nat}

theorem hw_walk_eq (tree : Tree pteFormat 512 3 root m node) (inside : g < 512 ^ 4) :
    hwWalk m g 3 root = readPte (leafEntry 512 m node g) := by
  refine tree_walk tree inside (hwWalk m g) readPte (fun p => rfl) ?_ ?_
  · intro l p missing
    unfold index at missing
    unfold hwWalk
    dsimp only
    rw [missing, Nat.zero_and, if_pos rfl, read_zero]
  · intro l p f low valid entry
    unfold index at entry
    change _ = pdLink l f at entry
    have child : pteChild (pdLink l f) = f := valid.child
    have level := link_level f (Nat.le_of_lt low)
    rw [hwWalk, entry, if_neg (link_present l f), level, if_neg (Nat.succ_ne_zero l), if_pos rfl,
      child]

def hasTables (m : Nat → Nat → Nat) (g : Nat) : Nat → Nat → Bool
  | 0, _ => true
  | l + 1, p =>
      let e := m p (g / 512 ^ (l + 1) % 512)
      decide (e ≠ 0) && hasTables m g l (pteChild e)

theorem has_tables_eq (tree : Tree pteFormat 512 3 root m node) (inside : g < 512 ^ 4) :
    hasTables m g 3 root = (node 0 (g / 512)).isSome := by
  refine tree_descend tree inside (hasTables m g) Option.isSome (fun p => rfl) ?_ ?_
  · intro l p missing
    unfold index at missing
    unfold hasTables
    rw [missing]
    rfl
  · intro l p f low valid entry
    unfold index at entry
    change _ = pdLink l f at entry
    have child : pteChild (pdLink l f) = f := valid.child
    have present : pdLink l f ≠ 0 := valid.present
    rw [hasTables, entry, decide_eq_true present, Bool.true_and, child]

theorem free_visit (m : Nat → Nat → Nat) (l : Nat) : ∀ p,
    amdviFreePtp m (l + 1) p = visit pteFormat 512 m l p := by
  induction l with
  | zero =>
    intro p
    unfold amdviFreePtp visit
    have none_ : ((List.range 512).flatMap fun i =>
        if m p i &&& ptPresent = 0 then [] else amdviFreePtp m 0 (pteChild (m p i))) = [] := by
      rw [flatMap_eq_nil_iff]
      intro i _
      split <;> rfl
    rw [none_, nil_append]
  | succ l ih =>
    intro p
    refine congrArg (· ++ [p]) (congrArg (List.flatMap · (List.range 512)) ?_)
    funext i
    rw [ih]
    change _ = if decide (m p i &&& ptPresent ≠ 0) = true then
      visit pteFormat 512 m l (pteChild (m p i)) else []
    by_cases absent : m p i &&& ptPresent = 0
    · rw [if_pos absent, if_neg (by simp [absent])]
    · rw [if_neg absent, if_pos (decide_eq_true absent)]

end

section
variable {s s' s'' : State} {node node' node'' : Nat → Nat → Option Nat} {p gpa hpa : Nat}
  {create : Bool} {map : Nat → Option Nat}

/-- What an update does to memory: new tables are pages that malloc had, and only the tables of the
    domain are written and touched. -/
structure Moves (node node' : Nat → Nat → Option Nat) (s s' : State) : Prop where
  keeps : ∀ l q f, node l q = some f → node' l q = some f
  new : ∀ l q f, node' l q = some f → node l q = some f ∨ f ∈ s.free
  elsewhere : ∀ f, f ∉ s.free → (∀ l q, node l q ≠ some f) → s'.entry f = s.entry f
  pages : ∃ used, s.free = used ++ s'.free
  touched : ∃ ts, s'.touched = s.touched ++ ts ∧ ∀ f ∈ ts, ∃ l q, node' l q = some f
  rest : s' = { s with entry := s'.entry, free := s'.free, touched := s'.touched }

theorem moves_none (node : Nat → Nat → Option Nat) (s : State) : Moves node node s s :=
  ⟨fun _ _ _ here => here, fun _ _ _ here => .inl here, fun _ _ _ => rfl, ⟨[], rfl⟩,
    ⟨[], (append_nil _).symm, fun _ never => absurd never not_mem_nil⟩, rfl⟩

theorem moves_trans (first : Moves node node' s s') (second : Moves node' node'' s' s'') :
    Moves node node'' s s'' := by
  obtain ⟨used, pages⟩ := first.pages
  obtain ⟨used', pages'⟩ := second.pages
  obtain ⟨ts, touched, inside⟩ := first.touched
  obtain ⟨ts', touched', inside'⟩ := second.touched
  have sub : ∀ f, f ∈ s'.free → f ∈ s.free := fun f member => pages ▸ mem_append_right used member
  refine ⟨fun l q f here => second.keeps l q f (first.keeps l q f here), fun l q f here => ?_,
    fun f apart other => ?_, ⟨used ++ used', by rw [pages, pages', List.append_assoc]⟩,
    ⟨ts ++ ts', by rw [touched', touched, List.append_assoc], fun f member => ?_⟩, ?_⟩
  · obtain before | member := second.new l q f here
    · exact first.new l q f before
    · exact .inr (sub f member)
  · have later : ∀ l q, node' l q ≠ some f := by
      intro l q here
      obtain before | member := first.new l q f here
      · exact other l q before
      · exact apart member
    exact (second.elsewhere f (fun member => apart (sub f member)) later).trans
      (first.elsewhere f apart other)
  · obtain before | later := List.mem_append.mp member
    · obtain ⟨l, q, here⟩ := inside f before
      exact ⟨l, q, second.keeps l q f here⟩
    · exact inside' f later
  · rw [second.rest, first.rest]

variable {q f pt n : Nat}

theorem moves_touch {l : Nat} (here : node l q = some f) : Moves node node s (s.touch f) :=
  ⟨fun _ _ _ here => here, fun _ _ _ here => .inl here, fun _ _ _ => rfl, ⟨[], rfl⟩,
    ⟨[f], rfl, fun _ member => ⟨l, q, List.mem_singleton.mp member ▸ here⟩⟩, rfl⟩

theorem moves_put {l : Nat} (here : node l q = some f) (i e : Nat) :
    Moves node node s (s.put f i e) := by
  refine ⟨fun _ _ _ here => here, fun _ _ _ here => .inl here, fun g _ other => ?_, ⟨[], rfl⟩,
    ⟨[], (append_nil _).symm, fun _ never => absurd never not_mem_nil⟩, rfl⟩
  refine write_other ?_ i e s.entry
  rintro rfl
  exact other l q here

abbrev Owns (p : Nat) (node : Nat → Nat → Option Nat) (s : State) : Prop :=
  Tables pteFormat 512 3 p s.entry s.free node

theorem gpa_index (gpa n : Nat) : gpa / 2 ^ (12 + n * 9) % 512 = index 512 n (gpa / 4096) := by
  unfold index
  rw [Nat.pow_add, ← Nat.div_div_eq_div_mul, Nat.mul_comm n 9, Nat.pow_mul]

theorem malloc_cases (s : State) : malloc s = .error .waits ∨ ∃ f rest, s.free = f :: rest ∧
      malloc s = .ok (f, { s with entry := clear f s.entry, free := rest }) := by
  unfold malloc
  cases pages : s.free with
  | nil => exact .inl rfl
  | cons f rest => exact .inr ⟨f, rest, rfl, rfl⟩

theorem walk_present (present : s.entry pt (index 512 (n + 1) (gpa / 4096)) ≠ 0) :
    amdviWalk 4096 gpa create (n + 1) pt s =
      amdviWalk 4096 gpa create n (pteChild (s.entry pt (index 512 (n + 1) (gpa / 4096))))
        (s.touch pt) := by
  have big : 2 ^ 13 ≤ 2 ^ (12 + (n + 1) * 9) := Nat.pow_le_pow_right (by decide) (by omega)
  rw [amdviWalk]
  rw [if_pos (by omega), gpa_index]
  exact if_neg fun both => present both.1

theorem walk_missing (missing : s.entry pt (index 512 (n + 1) (gpa / 4096)) = 0) :
    amdviWalk 4096 gpa true (n + 1) pt s =
      match malloc (s.touch pt) with
      | .error fault => .error fault
      | .ok (page, s) =>
          amdviWalk 4096 gpa true n
            (pteChild ((s.put pt (index 512 (n + 1) (gpa / 4096)) (pdLink n page)).entry pt
              (index 512 (n + 1) (gpa / 4096))))
            (s.put pt (index 512 (n + 1) (gpa / 4096)) (pdLink n page)) := by
  have big : 2 ^ 13 ≤ 2 ^ (12 + (n + 1) * 9) := Nat.pow_le_pow_right (by decide) (by omega)
  rw [amdviWalk]
  rw [if_pos (by omega), gpa_index]
  exact if_pos ⟨missing, rfl⟩

def State.grow (n pt i f : Nat) (rest : List Nat) (s : State) : State :=
  { s with entry := grown pteFormat n pt i f s.entry, free := rest, touched := s.touched ++ [pt] }

theorem grow_moves {i : Nat} {rest : List Nat} (owns : Owns p node s) (pages : s.free = f :: rest)
    (here : node (n + 1) q = some pt) (small : i < 512) (missing : s.entry pt i = 0) :
    Owns p (addNode n (512 * q + i) f node) (s.grow n pt i f rest) ∧
      (∀ g, leafEntry 512 (s.grow n pt i f rest).entry (addNode n (512 * q + i) f node) g =
        leafEntry 512 s.entry node g) ∧
      Moves node (addNode n (512 * q + i) f node) s (s.grow n pt i f rest) := by
  have empty := below_entry owns.tree here small missing
  have owns_ : Tables pteFormat 512 3 p s.entry (f :: rest) node := pages ▸ owns
  obtain ⟨owns', leaves⟩ := tables_grow owns_ here small missing
  have old : ∀ l q' f', node l q' = some f' → addNode n (512 * q + i) f node l q' = some f' := by
    intro l q' f' there
    rw [add_node_other, there]
    rintro ⟨rfl, rfl⟩
    rw [empty] at there
    cases there
  refine ⟨owns', leaves, old, fun l q' f' there => ?_, fun f' apart other => ?_, ⟨[f], pages⟩,
    ⟨[pt], rfl, fun g member => ⟨n + 1, q, ?_⟩⟩, rfl⟩
  · by_cases same : l = n ∧ q' = 512 * q + i
    · obtain ⟨rfl, rfl⟩ := same
      rw [add_node_self] at there
      cases there
      exact .inr (pages ▸ mem_cons_self)
    · rw [add_node_other f node same] at there
      exact .inl there
  · refine grown_other ?_ ?_
    · rintro rfl
      exact other _ _ here
    · rintro rfl
      exact apart (pages ▸ mem_cons_self)
  · rw [List.mem_singleton.mp member]
    exact old _ _ _ here

theorem walk_goes (n : Nat) : ∀ {pt : Nat} {s : State} {node}, Owns p node s →
    node n (gpa / 4096 / 512 ^ (n + 1)) = some pt →
    (create = false → node 0 (gpa / 4096 / 512) ≠ none) →
    (∃ pt' s' node', amdviWalk 4096 gpa create n pt s = .ok (pt', 12, s') ∧ Owns p node' s' ∧
        node' 0 (gpa / 4096 / 512) = some pt' ∧
        (∀ g, leafEntry 512 s'.entry node' g = leafEntry 512 s.entry node g) ∧
        Moves node node' s s') ∨
      amdviWalk 4096 gpa create n pt s = .error .waits := by
  induction n with
  | zero =>
    intro pt s node owns here _
    exact .inl ⟨pt, s, node, rfl, owns, here, fun _ => rfl, moves_none node s⟩
  | succ n ih =>
    intro pt s node owns here there
    have small : index 512 (n + 1) (gpa / 4096) < 512 := Nat.mod_lt _ (by decide)
    have place := prefix_step 512 n (gpa / 4096)
    by_cases missing : s.entry pt (index 512 (n + 1) (gpa / 4096)) = 0
    · have empty := below_entry owns.tree here small missing
      rw [place] at empty
      have making : create = true := by
        refine Bool.not_eq_false _ ▸ fun never => ?_
        obtain ⟨f, low⟩ := Option.ne_none_iff_exists'.mp (there never)
        have short := (owns.tree.within here).1
        obtain ⟨p', above⟩ := ancestor owns.tree low n (by omega)
        rw [Nat.zero_add, Nat.div_div_eq_div_mul, ← Nat.pow_succ', empty] at above
        cases above
      subst making
      rw [walk_missing missing]
      obtain waits | ⟨f, rest, pages, got⟩ := malloc_cases (s.touch pt)
      · rw [waits]
        exact .inr rfl
      · obtain ⟨owns', leaves, moves⟩ := grow_moves owns pages here small missing
        have valid := (owns.fresh f (pages ▸ mem_cons_self)).1 n
          (by have := (owns.tree.within here).1; omega)
        have child : pteChild (grown pteFormat n pt (index 512 (n + 1) (gpa / 4096)) f s.entry pt
            (index 512 (n + 1) (gpa / 4096))) = f := by
          rw [grown, write_at, if_pos rfl]
          exact valid.child
        rw [place] at owns' leaves moves
        rw [got]
        change (∃ pt' s' node', amdviWalk 4096 gpa true n (pteChild (grown pteFormat n pt
            (index 512 (n + 1) (gpa / 4096)) f s.entry pt (index 512 (n + 1) (gpa / 4096))))
            (s.grow n pt (index 512 (n + 1) (gpa / 4096)) f rest) = .ok (pt', 12, s') ∧ _) ∨
          amdviWalk 4096 gpa true n (pteChild (grown pteFormat n pt
            (index 512 (n + 1) (gpa / 4096)) f s.entry pt (index 512 (n + 1) (gpa / 4096))))
            (s.grow n pt (index 512 (n + 1) (gpa / 4096)) f rest) = .error .waits
        rw [child]
        obtain ⟨pt', s', node', ran, owns'', page, leaves', moves'⟩ | waits :=
          ih owns' (add_node_self _ _ _ _) (by rintro ⟨⟩)
        · exact .inl ⟨pt', s', node', ran, owns'', page, fun g => (leaves' g).trans (leaves g),
            moves_trans moves moves'⟩
        · exact .inr waits
    · obtain ⟨f, below, entry⟩ := below_link owns.tree here small missing
      change _ = pdLink n f at entry
      have child : pteChild (pdLink n f) = f := (owns.tree.valid below).child
      rw [place] at below
      rw [walk_present missing, entry, child]
      obtain ⟨pt', s', node', ran, owns', page, leaves, moves⟩ | waits :=
        @ih f (s.touch pt) node owns below there
      · exact .inl ⟨pt', s', node', ran, owns', page, leaves,
          moves_trans (moves_touch here) moves⟩
      · exact .inr waits

structure Denotes (p : Nat) (node : Nat → Nat → Option Nat) (map : Nat → Option Nat) (s : State) :
    Prop where
  owns : Owns p node s
  reads : ∀ g, readPte (leafEntry 512 s.entry node g) = map g

theorem set_pt_goes (denotes : Denotes p node map s) (gpaAligned : gpa % 4096 = 0)
    (hpaAligned : hpa % 4096 = 0) (inside : gpa < 2 ^ 48)
    (there : create = false → node 0 (gpa / 4096 / 512) ≠ none) :
    (∃ s' node', amdviSetPt p gpa hpa 4096 create s = .ok (4096, s') ∧
        Denotes p node' (update map (gpa / 4096) (target create hpa)) s' ∧
        Moves node node' s s') ∨
      amdviSetPt p gpa hpa 4096 create s = .error .waits := by
  unfold amdviSetPt
  rw [if_neg (not_not.mpr hpaAligned), if_neg (not_not.mpr gpaAligned)]
  have top : gpa / 4096 / 512 ^ (3 + 1) = 0 := by omega
  obtain ⟨pt', s', node', ran, owns, page, leaves, moves⟩ | waits :=
    walk_goes 3 denotes.owns (by rw [top]; exact denotes.owns.tree.root) there
  · refine .inl ⟨(s'.touch pt').put pt' (gpa / 4096 % 512) (leafValue hpa create), node', ?_, ⟨?_, ?_⟩,
      moves_trans moves (moves_trans (moves_touch page) (moves_put page _ _))⟩
    · rw [show ptpLevel - 1 = 3 from rfl, ran]; rfl
    · exact tables_write owns page _ _
    · intro g
      change readPte (leafEntry 512 (write pt' (gpa / 4096 % 512) (leafValue hpa create) s'.entry) node' g) = _
      rw [leaf_write owns.tree page, update_apply, leaves, ← denotes.reads g]
      split
      · exact read_leaf create hpa
      · rfl
  · refine .inr ?_
    rw [show ptpLevel - 1 = 3 from rfl, waits]

def paint (create : Bool) (gpa hpa pages : Nat) (map : Nat → Option Nat) (g : Nat) : Option Nat :=
  if gpa / 4096 ≤ g ∧ g < gpa / 4096 + pages then target create (hpa + (g - gpa / 4096) * 4096)
  else map g

theorem paint_step (create : Bool) (gpa hpa pages : Nat) (map : Nat → Option Nat) :
    update (paint create gpa hpa pages map) (gpa / 4096 + pages)
      (target create (hpa + 4096 * pages)) = paint create gpa hpa (pages + 1) map := by
  funext g
  unfold paint
  rw [update_apply]
  by_cases last : g = gpa / 4096 + pages
  · subst last
    rw [if_pos rfl, if_pos (by omega), Nat.add_sub_cancel_left, Nat.mul_comm]
  · rw [if_neg last]
    by_cases covered : gpa / 4096 ≤ g ∧ g < gpa / 4096 + pages
    · rw [if_pos covered, if_pos (by omega)]
    · rw [if_neg covered, if_neg (by omega)]

theorem update_goes {total : Nat} (gpaAligned : gpa % 4096 = 0) (hpaAligned : hpa % 4096 = 0)
    (inside : gpa + 4096 * total ≤ 2 ^ 48) (k : Nat) : ∀ {turns done : Nat} {s : State} {node},
    k ≤ turns → done + k = total →
    (create = false → ∀ i < total, node 0 ((gpa / 4096 + i) / 512) ≠ none) →
    Denotes p node (paint create gpa hpa done map) s →
    (∃ s' node', amdviUpdateMapping p gpa hpa (4096 * total) create turns (4096 * done) s = .ok s' ∧
        Denotes p node' (paint create gpa hpa total map) s' ∧ Moves node node' s s') ∨
      amdviUpdateMapping p gpa hpa (4096 * total) create turns (4096 * done) s = .error .waits := by
  induction k with
  | zero =>
    intro turns done s node _ all _ denotes
    obtain rfl : done = total := all
    refine .inl ⟨s, node, ?_, denotes, moves_none node s⟩
    cases turns with
    | zero => exact if_neg (Nat.lt_irrefl _)
    | succ turns => exact if_neg (Nat.lt_irrefl _)
  | succ k ih =>
    intro turns done s node enough all there denotes
    obtain ⟨turns, rfl⟩ : ∃ t, turns = t + 1 := Nat.exists_eq_succ_of_ne_zero (by omega)
    have page : (gpa + 4096 * done) / 4096 = gpa / 4096 + done := by omega
    rw [amdviUpdateMapping, if_pos (by omega)]
    obtain ⟨s', node', ran, denotes', moves⟩ | waits :=
      @set_pt_goes s node p (gpa + 4096 * done) (hpa + 4096 * done) create _ denotes (by omega)
        (by omega) (by omega) (by rw [page]; exact fun never => there never done (by omega))
    · rw [ran]
      dsimp only
      rw [page, paint_step] at denotes'
      have next : 4096 * done + 4096 = 4096 * (done + 1) := by omega
      have there' : create = false → ∀ i < total, node' 0 ((gpa / 4096 + i) / 512) ≠ none := by
        intro never i small missing
        obtain ⟨f, here⟩ := Option.ne_none_iff_exists'.mp (there never i small)
        rw [moves.keeps _ _ _ here] at missing
        cases missing
      obtain ⟨s'', node'', ran', denotes'', moves'⟩ | waits :=
        @ih turns (done + 1) s' node' (by omega) (by omega) there' denotes'
      · exact .inl ⟨s'', node'', ran', denotes'', moves_trans moves moves'⟩
      · exact .inr waits
    · rw [waits]
      exact .inr rfl

end

def MapCall.covers (g : Nat) : MapCall → Bool
  | .create gpa _ len | .destroy gpa len => decide (gpa / 4096 ≤ g) && decide (g < (gpa + len) / 4096)

def MapCall.target (g : Nat) : MapCall → Option Nat
  | .create gpa hpa _ => some ((hpa + (g - gpa / 4096) * 4096) % 2 ^ 52 / 4096)
  | .destroy _ _ => none

def lastTarget (calls : List MapCall) (g : Nat) : Option Nat :=
  (calls.reverse.find? (MapCall.covers g)).bind (MapCall.target g)

/-- Page-aligned ranges below 2^48. -/
def Call.Ok : Call → Prop
  | .createMapping _ gpa hpa len => gpa % 4096 = 0 ∧ hpa % 4096 = 0 ∧ len % 4096 = 0 ∧ gpa + len ≤ 2 ^ 48
  | .destroyMapping _ gpa len => gpa % 4096 = 0 ∧ len % 4096 = 0 ∧ gpa + len ≤ 2 ^ 48
  | _ => True

def Tabled (s : State) (h f : Nat) : Prop :=
  ∃ d p l, s.domain h = some d ∧ d.ptp = some p ∧ Reach pteFormat 512 3 p s.entry l f

structure Sound (s : State) : Prop where
  walks : ∀ h d p, s.domain h = some d → d.ptp = some p → ∀ g < 512 ^ 4,
    hwWalk s.entry g 3 p = lastTarget d.calls g
  ids : ∀ h h' d d', s.domain h = some d → s.domain h' = some d' → d.id = d'.id → h = h'
  dma : ∀ devid p, (s.dte devid).translates p →
    ∃ h d, s.owner devid = some h ∧ s.domain h = some d ∧ d.ptp = some p

/-- A call touches tables of its domain only, and frees the tables of a domain that it destroys. -/
def Careful (s s' : State) : Call → Prop
  | .createMapping h _ _ _ | .destroyMapping h _ _ => (∀ f ∈ s'.touched, Tabled s' h f) ∧ s'.freed = []
  | .destroyDomain h => (∀ f ∈ s'.touched, Tabled s h f) ∧
      s'.freed.Nodup ∧ ∀ f, f ∈ s'.freed ↔ Tabled s h f
  | _ => s'.touched = [] ∧ s'.freed = []

/-- A call comes back, unless malloc waits for a page, and what is to hold then holds. -/
def KeepsSound (s : State) (c : Call) : Prop :=
  call s c = .error .waits ∨ ∃ s', call s c = .ok s' ∧ Sound s' ∧ Careful s s' c

/-- Which calls are in order: a new id is not one of a live domain, a mapping that is destroyed has
    its tables, a device that gets a domain without tables was in none with tables before, and a
    device that is removed, or whose domain is destroyed, is not translated. -/
def InOrder (s : State) : Call → Prop
  | .createDomain => ∀ h d, s.domain h = some d → d.id ≠ (amdviDomainId s.domId).1
  | .createMapping _ _ _ _ => True
  | .destroyMapping h gpa len => ∀ d p, s.domain h = some d → d.ptp = some p → ∀ i < len / 4096,
      hasTables s.entry (gpa / 4096 + i) 3 p = true
  | .addDevice h devid => ∀ d, s.domain h = some d → d.ptp = none → (s.dte devid).ptLevel = 0
  | .removeDevice _ devid => ∀ p, ¬ (s.dte devid).translates p
  | .destroyDomain h => ∀ d p, s.domain h = some d → d.ptp = some p → ∀ devid,
      ¬ (s.dte devid).translates p

section
variable {s s' : State} {nodes : Nat → Nat → Nat → Option Nat} {h : Nat} {d : Domain} {p : Nat}

structure Inv (nodes : Nat → Nat → Nat → Option Nat) (s : State) : Prop where
  nodup : s.free.Nodup
  small : ∀ f ∈ s.free, f < 2 ^ 40
  denotes : ∀ h d p, s.domain h = some d → d.ptp = some p → Denotes p (nodes h) (lastTarget d.calls) s
  apart : ∀ h d p, s.domain h = some d → d.ptp = some p →
    ∀ h' d' p', s.domain h' = some d' → d'.ptp = some p' →
      ∀ l q l' q' f, nodes h l q = some f → nodes h' l' q' = some f → h = h'
  young : ∀ h d, s.domain h = some d → h < s.created
  ids : ∀ h h' d d', s.domain h = some d → s.domain h' = some d' → d.id = d'.id → h = h'
  dma : ∀ devid p, (s.dte devid).translates p →
    ∃ h d, s.owner devid = some h ∧ s.domain h = some d ∧ d.ptp = some p
  valid : ∀ devid, (s.dte devid).ptValid = true → (s.dte devid).dtValid = true

theorem inv_sound (inv : Inv nodes s) : Sound s := by
  refine ⟨fun h d p here tables g inside => ?_, inv.ids, inv.dma⟩
  have denotes := inv.denotes h d p here tables
  rw [hw_walk_eq denotes.owns.tree inside, denotes.reads]

theorem tabled_iff (inv : Inv nodes s) (here : s.domain h = some d) (tables : d.ptp = some p)
    (f : Nat) : Tabled s h f ↔ ∃ l q, nodes h l q = some f := by
  have tree := (inv.denotes h d p here tables).owns.tree
  constructor
  · rintro ⟨d', p', l, here', tables', reach⟩
    cases here.symm.trans here'
    cases tables.symm.trans tables'
    exact ⟨l, (reach_iff tree).mp reach⟩
  · rintro ⟨l, q, there⟩
    exact ⟨d, p, l, here, tables, (reach_iff tree).mpr ⟨q, there⟩⟩

theorem last_target_snoc (calls : List MapCall) (c : MapCall) (g : Nat) :
    lastTarget (calls ++ [c]) g = if c.covers g then c.target g else lastTarget calls g := by
  unfold lastTarget
  rw [List.reverse_append, reverse_singleton, singleton_append, find?_cons]
  cases c.covers g <;> rfl

theorem denotes_frame {node node' : Nat → Nat → Option Nat} {other : Nat → Nat → Option Nat}
    {map : Nat → Option Nat} {p' : Nat} (denotes : Denotes p' other map s)
    (moves : Moves node node' s s') (apart : ∀ l q l' q' f, other l q = some f → node l' q' ≠ some f) :
    Denotes p' other map s' ∧
      ∀ l q l' q' f, other l q = some f → node' l' q' ≠ some f := by
  have outside : ∀ l q f, other l q = some f → f ∉ s.free := fun l q f here member =>
    (denotes.owns.fresh f member).2 l q here
  have same : ∀ l q f, other l q = some f → s'.entry f = s.entry f := fun l q f here =>
    moves.elsewhere f (outside l q f here) fun l' q' => apart l q l' q' f here
  obtain ⟨used, pages⟩ := moves.pages
  have nodup := denotes.owns.nodup
  rw [pages] at nodup
  refine ⟨⟨⟨tree_frame denotes.owns.tree same, (List.nodup_append.mp nodup).2.1, fun f member =>
    denotes.owns.fresh f (pages ▸ mem_append_right used member)⟩, fun g => ?_⟩, ?_⟩
  · rw [leaf_frame same, denotes.reads]
  · intro l q l' q' f here there
    obtain before | member := moves.new l' q' f there
    · exact apart l q l' q' f here before
    · exact outside l q f here member

section
variable (inv : Inv nodes s)
include inv

theorem inv_mapped (here : s.domain h = some d) (tables : d.ptp = some p)
    {node' : Nat → Nat → Option Nat} (c : MapCall) (moves : Moves (nodes h) node' s s')
    (denotes : Denotes p node' (lastTarget (d.calls ++ [c])) s') :
    Inv (update nodes h node') (s'.note h d c) := by
  obtain ⟨used, pages⟩ := moves.pages
  have rest := moves.rest
  have domain : s'.domain = s.domain := by rw [rest]
  have nodup := inv.nodup
  have others : ∀ h', h' ≠ h → ∀ d' p', s.domain h' = some d' → d'.ptp = some p' →
      Denotes p' (nodes h') (lastTarget d'.calls) s' ∧
        ∀ l q l' q' f, nodes h' l q = some f → node' l' q' ≠ some f := by
    intro h' other d' p' here' tables'
    exact denotes_frame (inv.denotes h' d' p' here' tables') moves fun l q l' q' f inside inside' =>
      other (inv.apart h' d' p' here' tables' h d p here tables l q l' q' f inside inside')
  have look : ∀ h' d', (s'.note h d c).domain h' = some d' →
      (h' = h ∧ d' = { d with calls := d.calls ++ [c] }) ∨ (h' ≠ h ∧ s.domain h' = some d') := by
    intro h' d' there
    change update s'.domain h _ h' = some d' at there
    rw [domain] at there
    by_cases same : h' = h
    · subst same
      rw [update_self] at there
      exact .inl ⟨rfl, (Option.some.inj there).symm⟩
    · rw [update_of_ne same] at there
      exact .inr ⟨same, there⟩
  rw [pages] at nodup
  constructor
  · exact (List.nodup_append.mp nodup).2.1
  · exact fun f member => inv.small f (pages ▸ mem_append_right used member)
  · intro h' d' p' there tables'
    obtain ⟨rfl, rfl⟩ | ⟨other, there⟩ := look h' d' there
    · cases tables.symm.trans tables'
      rw [update_self]
      exact ⟨denotes.owns, denotes.reads⟩
    · rw [update_of_ne other]
      have same := (others h' other d' p' there tables').1
      exact ⟨same.owns, same.reads⟩
  · intro h₁ d₁ p₁ there₁ tables₁ h₂ d₂ p₂ there₂ tables₂ l q l' q' f in₁ in₂
    obtain ⟨rfl, rfl⟩ | ⟨other₁, stood₁⟩ := look h₁ d₁ there₁ <;>
      obtain ⟨same₂, rfl⟩ | ⟨other₂, stood₂⟩ := look h₂ d₂ there₂
    · exact same₂.symm
    · rw [update_self] at in₁
      rw [update_of_ne other₂] at in₂
      exact absurd in₁ ((others h₂ other₂ d₂ p₂ stood₂ tables₂).2 l' q' l q f in₂)
    · subst same₂
      rw [update_self] at in₂
      rw [update_of_ne other₁] at in₁
      exact absurd in₂ ((others h₁ other₁ d₁ p₁ stood₁ tables₁).2 l q l' q' f in₁)
    · rw [update_of_ne other₁] at in₁
      rw [update_of_ne other₂] at in₂
      exact inv.apart h₁ d₁ p₁ stood₁ tables₁ h₂ d₂ p₂ stood₂ tables₂ l q l' q' f in₁ in₂
  · intro h' d' there
    have same : (s'.note h d c).created = s.created := by
      rw [rest]
      rfl
    rw [same]
    obtain ⟨rfl, rfl⟩ | ⟨-, stood⟩ := look h' d' there
    · exact inv.young h' d here
    · exact inv.young h' d' stood
  · intro h₁ h₂ d₁ d₂ there₁ there₂ same
    obtain ⟨rfl, rfl⟩ | ⟨-, stood₁⟩ := look h₁ d₁ there₁ <;>
      obtain ⟨same₂, rfl⟩ | ⟨-, stood₂⟩ := look h₂ d₂ there₂
    · exact same₂.symm
    · exact inv.ids h₁ h₂ d d₂ here stood₂ same
    · exact same₂ ▸ inv.ids h₁ h d₁ d stood₁ here same
    · exact inv.ids h₁ h₂ d₁ d₂ stood₁ stood₂ same
  · intro devid p' translated
    have same : (s'.note h d c).dte = s.dte ∧ (s'.note h d c).owner = s.owner := by
      rw [rest]
      exact ⟨rfl, rfl⟩
    rw [same.1] at translated
    rw [same.2]
    obtain ⟨h', d', owner, there, tables'⟩ := inv.dma devid p' translated
    by_cases mine : h' = h
    · subst mine
      cases here.symm.trans there
      exact ⟨h', { d with calls := d.calls ++ [c] }, owner, update_self _ _ _, tables'⟩
    · refine ⟨h', d', owner, ?_, tables'⟩
      change update s'.domain h _ h' = some d'
      rw [domain, update_of_ne mine]
      exact there
  · have same : (s'.note h d c).dte = s.dte := by
      rw [rest]
      rfl
    rw [same]
    exact inv.valid

theorem map_call_goes (here : s.domain h = some d) (tables : d.ptp = some p)
    {gpa hpa len : Nat} {create : Bool} {c : MapCall} (gpaAligned : gpa % 4096 = 0)
    (hpaAligned : hpa % 4096 = 0) (lenAligned : len % 4096 = 0) (inside : gpa + len ≤ 2 ^ 48)
    (there : create = false → ∀ i < len / 4096, hasTables s.entry (gpa / 4096 + i) 3 p = true)
    (painted : ∀ g, (if c.covers g then c.target g else lastTarget d.calls g) =
      paint create gpa hpa (len / 4096) (lastTarget d.calls) g)
    (quiet : s.touched = [] ∧ s.freed = []) :
    (∃ s', amdviUpdateMapping p gpa hpa len create len 0 s = .ok s' ∧
        (∃ nodes', Inv nodes' (s'.note h d c)) ∧
        (∀ f ∈ (s'.note h d c).touched, Tabled (s'.note h d c) h f) ∧ (s'.note h d c).freed = []) ∨
      amdviUpdateMapping p gpa hpa len create len 0 s = .error .waits := by
  have denotes := inv.denotes h d p here tables
  have start : Denotes p (nodes h) (paint create gpa hpa 0 (lastTarget d.calls)) s := by
    refine ⟨denotes.owns, fun g => (denotes.reads g).trans ?_⟩
    unfold paint
    rw [if_neg (by omega)]
  obtain ⟨k, rfl⟩ : ∃ k, len = 4096 * k := ⟨len / 4096, by omega⟩
  have pages : 4096 * k / 4096 = k := Nat.mul_div_cancel_left k (by decide)
  rw [pages] at there painted
  have exist : create = false → ∀ i < k, nodes h 0 ((gpa / 4096 + i) / 512) ≠ none := by
    intro never i small missing
    have all := there never i small
    rw [has_tables_eq denotes.owns.tree (by omega), missing] at all
    cases all
  obtain ⟨s', node', ran, denotes', moves⟩ | waits :=
    @update_goes p gpa hpa create (lastTarget d.calls) k gpaAligned hpaAligned inside k (4096 * k) 0 s
      (nodes h) (by omega) (Nat.zero_add k) exist start
  · have inv' := inv_mapped inv here tables c moves
      ⟨denotes'.owns, fun g => by rw [denotes'.reads, last_target_snoc, painted]⟩
    refine .inl ⟨s', ran, ⟨_, inv'⟩, fun f member => ?_, ?_⟩
    · rw [tabled_iff inv' (update_self _ _ _) tables, update_self]
      obtain ⟨ts, touched, all⟩ := moves.touched
      rw [quiet.1, nil_append] at touched
      exact all f (touched ▸ member)
    · have rest := moves.rest
      rw [rest]
      exact quiet.2
  · exact .inr waits

theorem inv_quiet : Inv nodes { s with touched := [], freed := [] } :=
  ⟨inv.nodup, inv.small, fun h d p here tables => ⟨(inv.denotes h d p here tables).owns,
    (inv.denotes h d p here tables).reads⟩, inv.apart, inv.young, inv.ids, inv.dma, inv.valid⟩

theorem inv_devices (devid : Nat) {e : Dte} {owner : Option Nat}
    (valid : e.ptValid = true → e.dtValid = true)
    (dma : ∀ p, e.translates p → ∃ h d, owner = some h ∧ s.domain h = some d ∧ d.ptp = some p) :
    Inv nodes { s with
      dte := update s.dte devid e
      owner := update s.owner devid owner } := by
  refine ⟨inv.nodup, inv.small, fun h d p here tables => ⟨(inv.denotes h d p here tables).owns,
    (inv.denotes h d p here tables).reads⟩, inv.apart, inv.young, inv.ids, ?_, ?_⟩
  · intro devid' p translated
    dsimp only at translated ⊢
    by_cases same : devid' = devid
    · subst same
      rw [update_self] at translated ⊢
      exact dma p translated
    · rw [update_of_ne same] at translated ⊢
      exact inv.dma devid' p translated
  · intro devid'
    dsimp only
    by_cases same : devid' = devid
    · subst same
      rw [update_self]
      exact valid
    · rw [update_of_ne same]
      exact inv.valid devid'

theorem root_small (here : s.domain h = some d) (tables : d.ptp = some p) : p < 2 ^ 40 := by
  have tree := (inv.denotes h d p here tables).owns.tree
  exact valid_small (tree.valid tree.root)

theorem add_device_goes (here : s.domain h = some d) {devid : Nat}
    (order : d.ptp = none → (s.dte devid).ptLevel = 0) :
    Inv nodes (s.setDte (some h) d devid true) := by
  refine inv_devices inv devid (fun _ => ?_) fun p translated => ?_
  · unfold amdviSetDte
    cases d.ptp <;> rfl
  · obtain ⟨-, -, level, base⟩ := translated
    refine ⟨h, d, rfl, here, ?_⟩
    cases tables : d.ptp with
    | none =>
      unfold amdviSetDte at level
      rw [tables] at level
      exact absurd (order tables) level
    | some p' =>
      unfold amdviSetDte at base
      rw [tables] at base
      have small := root_small inv here tables
      change p' % 2 ^ 40 = p at base
      rw [Nat.mod_eq_of_lt small] at base
      rw [base]

theorem remove_device_goes {devid : Nat}
    (order : ∀ p, ¬ (s.dte devid).translates p) : Inv nodes (s.setDte none d devid false) := by
  refine inv_devices inv devid (fun _ => rfl) fun p translated => ?_
  obtain ⟨-, valid, level, base⟩ := translated
  exact absurd ⟨inv.valid devid valid, valid, level, base⟩ (order p)

theorem destroy_domain_goes (here : s.domain h = some d)
    (order : ∀ p, d.ptp = some p → ∀ devid, ¬ (s.dte devid).translates p) :
    Inv nodes (amdviDestroyDomain h d s) ∧ (amdviDestroyDomain h d s).freed.Nodup ∧
      ∀ f, f ∈ (amdviDestroyDomain h d s).freed ↔ Tabled s h f := by
  obtain ⟨freed, listed, nodup, members⟩ : ∃ freed, (amdviDestroyDomain h d s).freed = freed ∧
      freed.Nodup ∧ ∀ f, f ∈ freed ↔ Tabled s h f := by
    refine ⟨_, rfl, ?_⟩
    unfold amdviDestroyDomain
    cases tables : d.ptp with
    | none =>
      refine ⟨nodup_nil, fun f => iff_of_false not_mem_nil ?_⟩
      rintro ⟨d', p', l, there, tables', -⟩
      cases here.symm.trans there
      cases tables.symm.trans tables'
    | some p =>
      have tree := (inv.denotes h d p here tables).owns.tree
      obtain ⟨nodup, reached⟩ := visit_reach tree
      change (amdviFreePtp s.entry (3 + 1) p).Nodup ∧ ∀ f, f ∈ amdviFreePtp s.entry (3 + 1) p ↔ _
      rw [free_visit]
      refine ⟨nodup, fun f => (reached f).trans ?_⟩
      rw [tabled_iff inv here tables]
      exact exists_congr fun l => reach_iff tree
  have whole : amdviDestroyDomain h d s = { s with
      domain := update s.domain h none
      free := s.free ++ freed
      freed := freed
      touched := freed } := by
    rw [← listed]
    rfl
  have look : ∀ h' d', update s.domain h none h' = some d' → h' ≠ h ∧ s.domain h' = some d' := by
    intro h' d' there
    by_cases same : h' = h
    · subst same
      rw [update_self] at there
      cases there
    · rw [update_of_ne same] at there
      exact ⟨same, there⟩
  have placed : ∀ f ∈ freed, ∃ p l q, d.ptp = some p ∧ nodes h l q = some f := by
    intro f member
    obtain ⟨d', p, l, there, tables, reach⟩ := (members f).mp member
    cases here.symm.trans there
    obtain ⟨l, q, place⟩ := (tabled_iff inv here tables f).mp ((members f).mp member)
    exact ⟨p, l, q, tables, place⟩
  refine ⟨?_, listed ▸ nodup, listed ▸ members⟩
  rw [whole]
  have supply : (s.free ++ freed).Nodup := by
    refine List.nodup_append.mpr ⟨inv.nodup, nodup, fun f member f' member' same => ?_⟩
    subst same
    obtain ⟨p, l, q, tables, place⟩ := placed f member'
    exact ((inv.denotes h d p here tables).owns.fresh f member).2 l q place
  have small : ∀ f ∈ s.free ++ freed, f < 2 ^ 40 := by
    intro f member
    obtain before | member := List.mem_append.mp member
    · exact inv.small f before
    · obtain ⟨p, l, q, tables, place⟩ := placed f member
      exact valid_small ((inv.denotes h d p here tables).owns.tree.valid place)
  refine ⟨supply, small, fun h' d' p' there tables' => ?_, fun h₁ d₁ p₁ there₁ tables₁ h₂ d₂ p₂ there₂
    tables₂ => inv.apart h₁ d₁ p₁ (look h₁ d₁ there₁).2 tables₁ h₂ d₂ p₂ (look h₂ d₂ there₂).2 tables₂,
    fun h' d' there => inv.young h' d' (look h' d' there).2,
    fun h₁ h₂ d₁ d₂ there₁ there₂ => inv.ids h₁ h₂ d₁ d₂ (look h₁ d₁ there₁).2 (look h₂ d₂ there₂).2,
    fun devid p' translated => ?_, inv.valid⟩
  · obtain ⟨other, there⟩ := look h' d' there
    have denotes := inv.denotes h' d' p' there tables'
    refine ⟨⟨denotes.owns.tree, supply, fun f member => ⟨fun l low => link_valid (small f member) low,
      fun l q inside => ?_⟩⟩, denotes.reads⟩
    obtain before | member := List.mem_append.mp member
    · exact (denotes.owns.fresh f before).2 l q inside
    · obtain ⟨p, l', q', tables, place⟩ := placed f member
      exact other (inv.apart h' d' p' there tables' h d p here tables l q l' q' f inside place)
  · obtain ⟨h', d', owner, there, tables'⟩ := inv.dma devid p' translated
    refine ⟨h', d', owner, ?_, tables'⟩
    change update s.domain h none h' = some d'
    rw [update_of_ne]
    · exact there
    · rintro rfl
      cases here.symm.trans there
      exact order p' tables' devid translated

theorem inv_added {m : Nat → Nat → Nat} {rest : List Nat} {id domId : Nat}
    {ptp : Option Nat} {node : Nat → Nat → Option Nat} (fresh : ∀ h d, s.domain h = some d → d.id ≠ id)
    (nodup : rest.Nodup) (small : ∀ f ∈ rest, f < 2 ^ 40)
    (mine : ∀ p, ptp = some p → Tables pteFormat 512 3 p m rest node ∧
      ∀ g, readPte (leafEntry 512 m node g) = none)
    (others : ∀ h d p, s.domain h = some d → d.ptp = some p →
      Tables pteFormat 512 3 p m rest (nodes h) ∧
        (∀ g, leafEntry 512 m (nodes h) g = leafEntry 512 s.entry (nodes h) g) ∧
        ∀ l q l' q' f, nodes h l q = some f → node l' q' ≠ some f) :
    Inv (update nodes s.created node) { s with
      entry := m
      free := rest
      domId := domId
      created := s.created + 1
      domain := update s.domain s.created (some ⟨id, ptp, []⟩) } := by
  have look : ∀ h d, update s.domain s.created (some ⟨id, ptp, []⟩) h = some d →
      (h = s.created ∧ d = ⟨id, ptp, []⟩) ∨ (h ≠ s.created ∧ s.domain h = some d) := by
    intro h d there
    by_cases same : h = s.created
    · subst same
      rw [update_self] at there
      exact .inl ⟨rfl, (Option.some.inj there).symm⟩
    · rw [update_of_ne same] at there
      exact .inr ⟨same, there⟩
  refine ⟨nodup, small, fun h d p there tables => ?_, fun h₁ d₁ p₁ there₁ tables₁ h₂ d₂ p₂ there₂ tables₂
    l q l' q' f in₁ in₂ => ?_, fun h d there => ?_, fun h₁ h₂ d₁ d₂ there₁ there₂ same => ?_,
    fun devid p translated => ?_, inv.valid⟩
  · obtain ⟨rfl, rfl⟩ | ⟨other, stood⟩ := look h d there
    · rw [update_self]
      obtain ⟨owns, reads⟩ := mine p tables
      exact ⟨owns, reads⟩
    · rw [update_of_ne other]
      obtain ⟨owns, same, -⟩ := others h d p stood tables
      exact ⟨owns, fun g => (congrArg readPte (same g)).trans
        ((inv.denotes h d p stood tables).reads g)⟩
  · obtain ⟨rfl, rfl⟩ | ⟨other₁, stood₁⟩ := look h₁ d₁ there₁ <;>
      obtain ⟨same₂, rfl⟩ | ⟨other₂, stood₂⟩ := look h₂ d₂ there₂
    · exact same₂.symm
    · rw [update_self] at in₁
      rw [update_of_ne other₂] at in₂
      exact absurd in₁ ((others h₂ d₂ p₂ stood₂ tables₂).2.2 l' q' l q f in₂)
    · subst same₂
      rw [update_self] at in₂
      rw [update_of_ne other₁] at in₁
      exact absurd in₂ ((others h₁ d₁ p₁ stood₁ tables₁).2.2 l q l' q' f in₁)
    · rw [update_of_ne other₁] at in₁
      rw [update_of_ne other₂] at in₂
      exact inv.apart h₁ d₁ p₁ stood₁ tables₁ h₂ d₂ p₂ stood₂ tables₂ l q l' q' f in₁ in₂
  · obtain ⟨rfl, -⟩ | ⟨-, stood⟩ := look h d there
    · exact Nat.lt_succ_self _
    · exact Nat.lt_succ_of_lt (inv.young h d stood)
  · obtain ⟨rfl, rfl⟩ | ⟨-, stood₁⟩ := look h₁ d₁ there₁ <;>
      obtain ⟨same₂, rfl⟩ | ⟨-, stood₂⟩ := look h₂ d₂ there₂
    · exact same₂.symm
    · exact absurd same.symm (fresh h₂ d₂ stood₂)
    · exact absurd same (fresh h₁ d₁ stood₁)
    · exact inv.ids h₁ h₂ d₁ d₂ stood₁ stood₂ same
  · obtain ⟨h, d, owner, there, tables⟩ := inv.dma devid p translated
    refine ⟨h, d, owner, ?_, tables⟩
    change update s.domain s.created _ h = some d
    rw [update_of_ne (Nat.ne_of_lt (inv.young h d there))]
    exact there

theorem create_domain_goes (order : ∀ h d, s.domain h = some d → d.id ≠ (amdviDomainId s.domId).1) :
    (∃ s' nodes', amdviCreateDomain s = .ok s' ∧ Inv nodes' s' ∧ s'.touched = s.touched ∧
        s'.freed = s.freed) ∨
      amdviCreateDomain s = .error .waits := by
  unfold amdviCreateDomain
  dsimp only
  split
  · cases pages : s.free with
    | nil => exact .inr rfl
    | cons f rest =>
      have nodup := inv.nodup
      have small := inv.small
      rw [pages] at nodup small
      refine .inl ⟨_, update nodes s.created (addNode 3 0 f fun _ _ => none), rfl, ?_, rfl,
        rfl⟩
      refine @inv_added s nodes inv (clear f s.entry) rest (amdviDomainId s.domId).1
        (amdviDomainId s.domId).2 (some f) (addNode 3 0 f fun _ _ => none) order
        (List.nodup_cons.mp nodup).2 (fun f' member => small f' (mem_cons_of_mem f member)) ?_ ?_
      · intro p same
        cases same
        exact ⟨tables_root (by decide) nodup fun f' member l low => link_valid (small f' member) low,
          fun g => by rw [leaf_root, read_zero]⟩
      · intro h d p there tables
        have denotes := inv.denotes h d p there tables
        have apart : ∀ l q, nodes h l q ≠ some f :=
          (denotes.owns.fresh f (pages ▸ mem_cons_self)).2
        have same : ∀ l q f', nodes h l q = some f' → clear f s.entry f' = s.entry f' := by
          intro l q f' here
          refine clear_other ?_ s.entry
          rintro rfl
          exact apart l q here
        refine ⟨⟨tree_frame denotes.owns.tree same, (List.nodup_cons.mp nodup).2, fun f' member =>
          denotes.owns.fresh f' (pages ▸ mem_cons_of_mem f member)⟩, fun g => leaf_frame same g, ?_⟩
        intro l q l' q' f' here there'
        by_cases place : l' = 3 ∧ q' = 0
        · obtain ⟨rfl, rfl⟩ := place
          cases there'
          exact apart l q here
        · rw [add_node_other f _ place] at there'
          cases there'
  · refine .inl ⟨_, update nodes s.created fun _ _ => none, rfl, ?_, rfl, rfl⟩
    refine @inv_added s nodes inv s.entry s.free (amdviDomainId s.domId).1 (amdviDomainId s.domId).2
      none (fun _ _ => none) order inv.nodup inv.small nofun ?_
    intro h d p there tables
    have denotes := inv.denotes h d p there tables
    exact ⟨denotes.owns, fun _ => rfl, nofun⟩

end

def Allowed (s : State) (c : Call) : Prop := c.Ok ∧ InOrder s c

theorem call_goes (inv : Inv nodes s) {c : Call} (allowed : Allowed s c) :
    call s c = .error .waits ∨ ∃ s' nodes', call s c = .ok s' ∧ Inv nodes' s' ∧ Careful s s' c := by
  obtain ⟨ok, order⟩ := allowed
  have quiet := inv_quiet inv
  cases c with
  | createDomain =>
    obtain ⟨s', nodes', ran, inv', touched, freed⟩ | waits := create_domain_goes quiet order
    · exact .inr ⟨s', nodes', ran, inv', touched, freed⟩
    · exact .inl waits
  | createMapping h gpa hpa len =>
    obtain ⟨gpaAligned, hpaAligned, lenAligned, inside⟩ := ok
    unfold call
    dsimp only
    cases here : s.domain h with
    | none => exact .inr ⟨_, nodes, rfl, quiet, fun _ never => absurd never not_mem_nil, rfl⟩
    | some d =>
      dsimp only
      unfold amdviCreateMapping
      cases tables : d.ptp with
      | none => exact .inr ⟨_, nodes, rfl, quiet, fun _ never => absurd never not_mem_nil, rfl⟩
      | some p =>
        dsimp only
        have painted : ∀ g, (if (MapCall.create gpa hpa len).covers g then
            (MapCall.create gpa hpa len).target g else lastTarget d.calls g) =
              paint true gpa hpa (len / 4096) (lastTarget d.calls) g := by
          intro g
          unfold MapCall.covers paint MapCall.target target
          have last : (gpa + len) / 4096 = gpa / 4096 + len / 4096 := by omega
          simp [last]
        obtain ⟨s', ran, ⟨nodes', inv'⟩, touched, freed⟩ | waits :=
          map_call_goes quiet here tables gpaAligned hpaAligned lenAligned inside
            (fun never => by cases never) painted ⟨rfl, rfl⟩
        · rw [ran]
          exact .inr ⟨_, nodes', rfl, inv', touched, freed⟩
        · rw [waits]
          exact .inl rfl
  | destroyMapping h gpa len =>
    obtain ⟨gpaAligned, lenAligned, inside⟩ := ok
    unfold call
    dsimp only
    cases here : s.domain h with
    | none => exact .inr ⟨_, nodes, rfl, quiet, fun _ never => absurd never not_mem_nil, rfl⟩
    | some d =>
      dsimp only
      unfold amdviDestroyMapping
      cases tables : d.ptp with
      | none => exact .inr ⟨_, nodes, rfl, quiet, fun _ never => absurd never not_mem_nil, rfl⟩
      | some p =>
        dsimp only
        have painted : ∀ g, (if (MapCall.destroy gpa len).covers g then
            (MapCall.destroy gpa len).target g else lastTarget d.calls g) =
              paint false gpa 0 (len / 4096) (lastTarget d.calls) g := by
          intro g
          unfold MapCall.covers paint MapCall.target target
          have last : (gpa + len) / 4096 = gpa / 4096 + len / 4096 := by omega
          simp [last]
        obtain ⟨s', ran, ⟨nodes', inv'⟩, touched, freed⟩ | waits :=
          map_call_goes quiet here tables gpaAligned rfl lenAligned inside
            (fun _ => order d p here tables) painted ⟨rfl, rfl⟩
        · rw [ran]
          exact .inr ⟨_, nodes', rfl, inv', touched, freed⟩
        · rw [waits]
          exact .inl rfl
  | addDevice h devid =>
    unfold call
    dsimp only
    cases here : s.domain h with
    | none => exact .inr ⟨_, nodes, rfl, quiet, rfl, rfl⟩
    | some d => exact .inr ⟨_, nodes, rfl, add_device_goes quiet here (order d here), rfl, rfl⟩
  | removeDevice h devid =>
    unfold call
    dsimp only
    cases here : s.domain h with
    | none => exact .inr ⟨_, nodes, rfl, quiet, rfl, rfl⟩
    | some d => exact .inr ⟨_, nodes, rfl, remove_device_goes quiet order, rfl, rfl⟩
  | destroyDomain h =>
    unfold call
    dsimp only
    cases here : s.domain h with
    | none =>
      refine .inr ⟨_, nodes, rfl, quiet, fun _ never => absurd never not_mem_nil, nodup_nil,
        fun f => iff_of_false not_mem_nil ?_⟩
      rintro ⟨d, p, l, there, -⟩
      cases here.symm.trans there
    | some d =>
      obtain ⟨inv', nodup, members⟩ := destroy_domain_goes quiet here fun p tables => order d p here tables
      exact .inr ⟨_, nodes, rfl, inv', fun f member => (members f).mp member, nodup, members⟩

/-- The pages that malloc has are pages of physical memory, each at most once. -/
def Supplied (free : List Nat) : Prop := free.Nodup ∧ ∀ f ∈ free, f < 2 ^ 40

/-- In a run whose calls are in order every call leaves the domains and the device table sound. -/
theorem amdvi_sound (hostPtp : Bool) (entry : Nat → Nat → Nat) {free : List Nat}
    (supplied : Supplied free) (calls : List Call)
    (allowed : AlongAttempts call Allowed (started hostPtp entry free) calls) :
    AlongAttempts call KeepsSound (started hostPtp entry free) calls := by
  refine @along_attempts_of_invariant State Call Fault call (fun s => ∃ nodes, Inv nodes s) Allowed KeepsSound
    ?_ ?_ calls _ ⟨fun _ _ _ => none, ?_⟩ allowed
  · rintro s c s' ⟨nodes, inv⟩ allowed ran
    obtain waits | ⟨t, nodes', goes, inv', -⟩ := call_goes inv allowed
    · cases waits.symm.trans ran
    · cases goes.symm.trans ran
      exact ⟨nodes', inv'⟩
  · rintro s c ⟨nodes, inv⟩ allowed
    obtain waits | ⟨s', nodes', goes, inv', careful⟩ := call_goes inv allowed
    · exact .inl waits
    · exact .inr ⟨s', goes, inv_sound inv', careful⟩
  · constructor
    · exact supplied.1
    · exact supplied.2
    · intro h d p never
      cases never
    · intro h d p never
      cases never
    · intro h d never
      cases never
    · intro h h' d d' never
      cases never
    · rintro devid p ⟨never, -⟩
      cases never
    · intro devid never
      cases never

def inOrderCalls : List Call :=
  [.createDomain, .addDevice 0 5, .createMapping 0 0x1000 0x7000 0x2000]

theorem amdvi_sound_two :
    AlongAttempts call KeepsSound (started true (fun _ _ => 0) [1, 2, 3, 4, 5]) inOrderCalls := by
  refine amdvi_sound true (fun _ _ => 0) ⟨by decide, by decide⟩ inOrderCalls ?_
  refine along_attempts_cons ⟨trivial, nofun⟩ rfl ?_
  refine along_attempts_cons ⟨trivial, fun d here tables => ?_⟩ rfl ?_
  · cases here
    cases tables
  · exact along_attempts_last_step ⟨⟨by decide, by decide, by decide, by decide⟩, trivial⟩

theorem removed_device_translated :
    ¬ AlongAttempts call KeepsSound (started true (fun _ _ => 0) [1, 2, 3, 4, 5])
      [.createDomain, .addDevice 0 5, .removeDevice 0 5] := by
  rintro ⟨-, -, waits | ⟨s, ran, sound, -⟩, -⟩
  · cases waits
  · cases ran
    obtain ⟨h, d, owner, -⟩ := sound.dma 5 1 ⟨rfl, rfl, by decide, rfl⟩
    cases owner

end
end Amdvi
