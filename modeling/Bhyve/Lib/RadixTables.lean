import Mathlib.Algebra.Group.Nat.Defs
import Mathlib.Data.List.Flatten
import Mathlib.Data.List.Nodup
import Mathlib.Data.List.Range

/-!
Pages of entries in memory that form a radix tree. The tree is told by the page that stands at each
level for each prefix of a key, and a key of the tree has its entry in the page of the lowest level.
-/
namespace RadixTables
open Function List Nat

/-- How an entry points to a page of a level below its own. -/
structure Format where
  link : Nat → Nat → Nat
  child : Nat → Nat
  down : Nat → Bool
  down_zero : down 0 = false

/-- A page that an entry can point to. -/
structure Format.Valid (fmt : Format) (l f : Nat) : Prop where
  present : fmt.link l f ≠ 0
  child : fmt.child (fmt.link l f) = f
  down : fmt.down (fmt.link l f) = true

variable {fmt : Format} {fan top root : Nat} {m : Nat → Nat → Nat} {node : Nat → Nat → Option Nat}

def write (p i e : Nat) (m : Nat → Nat → Nat) : Nat → Nat → Nat :=
  update m p (update (m p) i e)

def clear (p : Nat) (m : Nat → Nat → Nat) : Nat → Nat → Nat := update m p fun _ => 0

theorem write_other {p f : Nat} (other : f ≠ p) (i e : Nat) (m : Nat → Nat → Nat) :
    write p i e m f = m f :=
  update_of_ne other _ _

theorem write_at (p i e j : Nat) (m : Nat → Nat → Nat) :
    write p i e m p j = if j = i then e else m p j := by
  unfold write
  rw [update_self, update_apply]

theorem clear_other {p f : Nat} (other : f ≠ p) (m : Nat → Nat → Nat) : clear p m f = m f :=
  update_of_ne other _ _

theorem clear_at (p i : Nat) (m : Nat → Nat → Nat) : clear p m p i = 0 := by
  unfold clear
  rw [update_self]

section

def Format.entry (fmt : Format) (l : Nat) : Option Nat → Nat
  | none => 0
  | some f => fmt.link l f

structure Tree (fmt : Format) (fan top root : Nat) (m : Nat → Nat → Nat)
    (node : Nat → Nat → Option Nat) : Prop where
  positive : 0 < fan
  root : node top 0 = some root
  within : ∀ {l q f}, node l q = some f → l ≤ top ∧ (l = top → q = 0)
  links : ∀ {l q p}, node (l + 1) q = some p → ∀ i < fan, m p i = fmt.entry l (node l (fan * q + i))
  parent : ∀ {l q f}, l < top → node l q = some f → ∃ p, node (l + 1) (q / fan) = some p
  apart : ∀ {l q l' q' f}, node l q = some f → node l' q' = some f → l = l' ∧ q = q'
  valid : ∀ {l q f}, node l q = some f → fmt.Valid l f

def leafEntry (fan : Nat) (m : Nat → Nat → Nat) (node : Nat → Nat → Option Nat) (g : Nat) : Nat :=
  match node 0 (g / fan) with
  | none => 0
  | some f => m f (g % fan)

def index (fan l g : Nat) : Nat := g / fan ^ l % fan

theorem prefix_step (fan l g : Nat) :
    fan * (g / fan ^ (l + 2)) + index fan (l + 1) g = g / fan ^ (l + 1) := by
  rw [Nat.pow_succ fan (l + 1), ← Nat.div_div_eq_div_mul]
  exact div_add_mod _ _

variable {l q f g p i : Nat}

theorem ancestor (tree : Tree fmt fan top root m node) (here : node l q = some f) (k : Nat) :
    l + k ≤ top → ∃ p, node (l + k) (q / fan ^ k) = some p := by
  induction k with
  | zero =>
    intro _
    rw [Nat.pow_zero, Nat.div_one]
    exact ⟨f, here⟩
  | succ k ih =>
    intro below
    obtain ⟨p, there⟩ := ih (by omega)
    obtain ⟨p', above⟩ := tree.parent (by omega) there
    rw [Nat.div_div_eq_div_mul, ← Nat.pow_succ] at above
    exact ⟨p', above⟩

theorem tree_descend {β : Type} (tree : Tree fmt fan top root m node)
    (inside : g < fan ^ (top + 1)) (walk : Nat → Nat → β) (arrive : Option Nat → β)
    (bottom : ∀ p, walk 0 p = arrive (some p))
    (absent : ∀ l p, m p (index fan (l + 1) g) = 0 → walk (l + 1) p = arrive none)
    (follow : ∀ l p f, l < top → fmt.Valid l f → m p (index fan (l + 1) g) = fmt.link l f → walk (l + 1) p = walk l f) :
    walk top root = arrive (node 0 (g / fan)) := by
  have from_ : ∀ l p, node l (g / fan ^ (l + 1)) = some p → walk l p = arrive (node 0 (g / fan)) := by
    intro l
    induction l with
    | zero =>
      intro p here
      rw [Nat.zero_add, Nat.pow_one] at here
      rw [bottom, here]
    | succ l ih =>
      intro p here
      have entry := tree.links here _ (mod_lt (g / fan ^ (l + 1)) tree.positive)
      change m p (index fan (l + 1) g) = fmt.entry l (node l (fan * (g / fan ^ (l + 2)) +
        index fan (l + 1) g)) at entry
      rw [prefix_step] at entry
      cases below : node l (g / fan ^ (l + 1)) with
      | none =>
        rw [below] at entry
        have missing : node 0 (g / fan) = none := by
          rw [Option.eq_none_iff_forall_ne_some]
          intro f there
          have short := (tree.within here).1
          obtain ⟨p', above⟩ := ancestor tree there l (by omega)
          rw [Nat.zero_add, Nat.div_div_eq_div_mul, ← Nat.pow_succ', below] at above
          cases above
        rw [absent l p entry, missing]
      | some f =>
        rw [below] at entry
        rw [follow l p f (tree.within here).1 (tree.valid below) entry]
        exact ih f below
  refine from_ top root ?_
  rw [div_eq_of_lt inside]
  exact tree.root

theorem tree_walk {β : Type} (tree : Tree fmt fan top root m node) (inside : g < fan ^ (top + 1))
    (walk : Nat → Nat → β) (read : Nat → β) (bottom : ∀ p, walk 0 p = read (m p (g % fan)))
    (absent : ∀ l p, m p (index fan (l + 1) g) = 0 → walk (l + 1) p = read 0)
    (follow : ∀ l p f, l < top → fmt.Valid l f → m p (index fan (l + 1) g) = fmt.link l f → walk (l + 1) p = walk l f) :
    walk top root = read (leafEntry fan m node g) := by
  rw [tree_descend tree inside walk (fun page => read (page.elim 0 fun f => m f (g % fan))) bottom
    absent follow]
  unfold leafEntry
  cases node 0 (g / fan) <;> rfl

/-- Below the top every key has a page of its own at the lowest level, so no two share an entry. -/
theorem leaf_apart (tree : Tree fmt fan top root m node) {g' : Nat}
    (here : node 0 (g / fan) = some f) (there : node 0 (g' / fan) = some f)
    (same : g % fan = g' % fan) : g = g' := by
  have pages := (tree.apart here there).2
  rw [← div_add_mod g fan, ← div_add_mod g' fan, pages, same]

theorem below_entry (tree : Tree fmt fan top root m node) (here : node (l + 1) q = some p)
    (small : i < fan) (missing : m p i = 0) : node l (fan * q + i) = none := by
  have entry := tree.links here i small
  cases there : node l (fan * q + i) with
  | none => rfl
  | some f =>
    rw [there, missing] at entry
    exact absurd entry.symm (tree.valid there).present

theorem below_link (tree : Tree fmt fan top root m node) (here : node (l + 1) q = some p)
    (small : i < fan) (present : m p i ≠ 0) :
    ∃ f, node l (fan * q + i) = some f ∧ m p i = fmt.link l f := by
  have entry := tree.links here i small
  cases there : node l (fan * q + i) with
  | none =>
    rw [there] at entry
    exact absurd entry present
  | some f =>
    rw [there] at entry
    exact ⟨f, rfl, entry⟩

def addNode (l q f : Nat) (node : Nat → Nat → Option Nat) : Nat → Nat → Option Nat :=
  update node l (update (node l) q (some f))

theorem add_node_self (l q f : Nat) (node : Nat → Nat → Option Nat) :
    addNode l q f node l q = some f := by
  unfold addNode
  rw [update_self, update_self]

theorem add_node_other {l' q' : Nat} (f : Nat) (node : Nat → Nat → Option Nat)
    (other : ¬ (l' = l ∧ q' = q)) : addNode l q f node l' q' = node l' q' := by
  unfold addNode
  by_cases same : l' = l
  · subst same
    rw [update_self, update_of_ne fun here => other ⟨rfl, here⟩]
  · rw [update_of_ne same]

def grown (fmt : Format) (l p i f : Nat) (m : Nat → Nat → Nat) : Nat → Nat → Nat :=
  write p i (fmt.link l f) (clear f m)

theorem grown_other {x : Nat} (other : x ≠ p) (old : x ≠ f) : grown fmt l p i f m x = m x := by
  rw [grown, write_other other, clear_other old]

section
variable (tree : Tree fmt fan top root m node)
include tree

theorem tree_grow (here : node (l + 1) q = some p)
    (small : i < fan) (missing : node l (fan * q + i) = none) (fresh : ∀ l q, node l q ≠ some f)
    (valid : fmt.Valid l f) :
    Tree fmt fan top root (grown fmt l p i f m) (addNode l (fan * q + i) f node) := by
  have parent_ : ∀ {x j}, j < fan → (fan * x + j) / fan = x := by
    intro x j narrow
    rw [mul_add_div tree.positive, div_eq_of_lt narrow, Nat.add_zero]
  have old : ∀ {l' q' f'}, node l' q' = some f' →
      addNode l (fan * q + i) f node l' q' = some f' := by
    intro l' q' f' there
    rw [add_node_other, there]
    rintro ⟨rfl, rfl⟩
    rw [missing] at there
    cases there
  have cases_ : ∀ {l' q' f'}, addNode l (fan * q + i) f node l' q' = some f' →
      (l' = l ∧ q' = fan * q + i ∧ f' = f) ∨ node l' q' = some f' := by
    intro l' q' f' there
    by_cases same : l' = l ∧ q' = fan * q + i
    · obtain ⟨rfl, rfl⟩ := same
      rw [add_node_self] at there
      exact .inl ⟨rfl, rfl, (Option.some.inj there).symm⟩
    · rw [add_node_other f node same] at there
      exact .inr there
  have short := (tree.within here).1
  constructor
  · exact tree.positive
  · exact old tree.root
  · intro l' q' f' there
    obtain ⟨rfl, rfl, rfl⟩ | stood := cases_ there
    · exact ⟨by omega, by omega⟩
    · exact tree.within stood
  · intro l' q' p' there j narrow
    obtain ⟨same, rfl, rfl⟩ | stood := cases_ there
    · have other : p' ≠ p := by
        rintro rfl
        exact fresh _ _ here
      have below : node l' (fan * (fan * q + i) + j) = none := by
        rw [Option.eq_none_iff_forall_ne_some]
        intro f' inside
        obtain ⟨p', above⟩ := tree.parent (by omega) inside
        rw [parent_ narrow, same, missing] at above
        cases above
      rw [grown, write_other other, clear_at, add_node_other, below]
      · rfl
      · omega
    · have other : p' ≠ f := by
        rintro rfl
        exact fresh _ _ stood
      by_cases same : p' = p ∧ j = i
      · obtain ⟨rfl, rfl⟩ := same
        obtain ⟨level, rfl⟩ := tree.apart here stood
        obtain rfl : l = l' := by omega
        rw [grown, write_at, if_pos rfl, add_node_self]
        rfl
      · have before : grown fmt l p i f m p' j = m p' j := by
          by_cases page : p' = p
          · subst page
            rw [grown, write_at, if_neg fun at_ => same ⟨rfl, at_⟩, clear_other other]
          · rw [grown, write_other page, clear_other other]
        rw [before, tree.links stood j narrow, add_node_other]
        rintro ⟨rfl, same_⟩
        have quotient := congrArg (· / fan) same_
        have remainder := congrArg (· % fan) same_
        rw [parent_ narrow, parent_ small] at quotient
        rw [mul_add_mod, mul_add_mod, mod_eq_of_lt narrow, mod_eq_of_lt small]
          at remainder
        subst quotient
        rw [here] at stood
        exact same ⟨(Option.some.inj stood).symm, remainder⟩
  · intro l' q' f' lower there
    obtain ⟨rfl, rfl, rfl⟩ | stood := cases_ there
    · rw [parent_ small]
      exact ⟨p, old here⟩
    · obtain ⟨p', above⟩ := tree.parent lower stood
      exact ⟨p', old above⟩
  · intro l₁ q₁ l₂ q₂ f' there there'
    obtain ⟨rfl, rfl, rfl⟩ | stood := cases_ there <;>
      obtain ⟨rfl, rfl, same⟩ | stood' := cases_ there'
    · exact ⟨rfl, rfl⟩
    · exact absurd stood' (fresh _ _)
    · subst same
      exact absurd stood (fresh _ _)
    · exact tree.apart stood stood'
  · intro l' q' f' there
    obtain ⟨rfl, rfl, rfl⟩ | stood := cases_ there
    · exact valid
    · exact tree.valid stood

theorem leaf_grow (here : node (l + 1) q = some p)
    (missing : node l (fan * q + i) = none) (fresh : ∀ l q, node l q ≠ some f) (g : Nat) :
    leafEntry fan (grown fmt l p i f m) (addNode l (fan * q + i) f node) g = leafEntry fan m node g := by
  have other : f ≠ p := by
    rintro rfl
    exact fresh _ _ here
  unfold leafEntry
  by_cases same : 0 = l ∧ g / fan = fan * q + i
  · obtain ⟨rfl, place⟩ := same
    rw [place, add_node_self, missing, grown]
    dsimp only
    rw [write_other other, clear_at]
  · rw [add_node_other f node same]
    cases there : node 0 (g / fan) with
    | none => rfl
    | some f' =>
      dsimp only
      have page : f' ≠ p := by
        rintro rfl
        have := (tree.apart there here).1
        omega
      have new : f' ≠ f := by
        rintro rfl
        exact fresh _ _ there
      rw [grown, write_other page, clear_other new]

theorem tree_write (here : node 0 q = some f) (i e : Nat) :
    Tree fmt fan top root (write f i e m) node := by
  refine ⟨tree.positive, tree.root, tree.within, fun {l q p} there j narrow => ?_, tree.parent,
    tree.apart, tree.valid⟩
  have other : p ≠ f := by
    rintro rfl
    have := (tree.apart here there).1
    omega
  rw [write_other other]
  exact tree.links there j narrow

theorem leaf_write (here : node 0 (g / fan) = some f) (e g' : Nat) :
    leafEntry fan (write f (g % fan) e m) node g' = if g' = g then e else leafEntry fan m node g' := by
  unfold leafEntry
  cases there : node 0 (g' / fan) with
  | none =>
    rw [if_neg]
    rintro rfl
    rw [here] at there
    cases there
  | some f' =>
    dsimp only
    by_cases page : f' = f
    · subst page
      rw [write_at]
      refine if_congr ⟨fun same => leaf_apart tree there here same, ?_⟩ rfl rfl
      rintro rfl
      rfl
    · rw [write_other page, if_neg]
      rintro rfl
      rw [here] at there
      exact page (Option.some.inj there).symm

theorem tree_frame {m' : Nat → Nat → Nat}
    (same : ∀ l q f, node l q = some f → m' f = m f) : Tree fmt fan top root m' node :=
  ⟨tree.positive, tree.root, tree.within,
    fun here i small => (congrFun (same _ _ _ here) i).trans (tree.links here i small), tree.parent,
    tree.apart, tree.valid⟩

end

theorem leaf_frame {m' : Nat → Nat → Nat} (same : ∀ l q f, node l q = some f → m' f = m f) (g : Nat) :
    leafEntry fan m' node g = leafEntry fan m node g := by
  unfold leafEntry
  cases here : node 0 (g / fan) with
  | none => rfl
  | some f => exact congrFun (same _ _ _ here) _

theorem tree_root (positive : 0 < fan) (valid : fmt.Valid top f) :
    Tree fmt fan top f (clear f m) (addNode top 0 f fun _ _ => none) := by
  have only : ∀ {l q f'}, addNode top 0 f (fun _ _ => none) l q = some f' →
      l = top ∧ q = 0 ∧ f' = f := by
    intro l q f' here
    by_cases same : l = top ∧ q = 0
    · obtain ⟨rfl, rfl⟩ := same
      rw [add_node_self] at here
      exact ⟨rfl, rfl, (Option.some.inj here).symm⟩
    · rw [add_node_other f _ same] at here
      cases here
  refine ⟨positive, add_node_self top 0 f _, fun here => ?_, fun here i _ => ?_, fun low here => ?_,
    fun here there => ?_, fun here => ?_⟩
  · obtain ⟨rfl, rfl, -⟩ := only here
    exact ⟨Nat.le_refl _, fun _ => rfl⟩
  · obtain ⟨level, rfl, rfl⟩ := only here
    rw [clear_at, add_node_other]
    · rfl
    · omega
  · obtain ⟨rfl, -⟩ := only here
    exact absurd low (Nat.lt_irrefl _)
  · obtain ⟨rfl, rfl, -⟩ := only here
    obtain ⟨rfl, rfl, -⟩ := only there
    exact ⟨rfl, rfl⟩
  · obtain ⟨rfl, -, rfl⟩ := only here
    exact valid

theorem leaf_root (g : Nat) :
    leafEntry fan (clear f m) (addNode top 0 f fun _ _ => none) g = 0 := by
  unfold leafEntry
  by_cases same : 0 = top ∧ g / fan = 0
  · rw [same.2, ← same.1, add_node_self]
    exact clear_at f _ _
  · rw [add_node_other f _ same]

end

section
variable {f : Nat} {free rest : List Nat}

structure Tables (fmt : Format) (fan top root : Nat) (m : Nat → Nat → Nat) (free : List Nat)
    (node : Nat → Nat → Option Nat) : Prop where
  tree : Tree fmt fan top root m node
  nodup : free.Nodup
  fresh : ∀ f ∈ free, (∀ l ≤ top, fmt.Valid l f) ∧ ∀ l q, node l q ≠ some f

theorem tables_grow (tables : Tables fmt fan top root m (f :: rest) node) {l q p i : Nat}
    (here : node (l + 1) q = some p) (small : i < fan) (missing : m p i = 0) :
    Tables fmt fan top root (grown fmt l p i f m) rest (addNode l (fan * q + i) f node) ∧
      ∀ g, leafEntry fan (grown fmt l p i f m) (addNode l (fan * q + i) f node) g =
        leafEntry fan m node g := by
  obtain ⟨valid, fresh⟩ := tables.fresh f mem_cons_self
  obtain ⟨apart, nodup⟩ := List.nodup_cons.mp tables.nodup
  have empty := below_entry tables.tree here small missing
  have low := (tables.tree.within here).1
  refine ⟨⟨tree_grow tables.tree here small empty fresh (valid l (by omega)), nodup, fun f' member => ?_⟩,
    leaf_grow tables.tree here empty fresh⟩
  obtain ⟨valid', fresh'⟩ := tables.fresh f' (mem_cons_of_mem f member)
  refine ⟨valid', fun l' q' there => ?_⟩
  by_cases same : l' = l ∧ q' = fan * q + i
  · obtain ⟨rfl, rfl⟩ := same
    rw [add_node_self] at there
    cases there
    exact apart member
  · rw [add_node_other f node same] at there
    exact fresh' l' q' there

theorem tables_root (positive : 0 < fan) (nodup : (f :: rest).Nodup)
    (valid : ∀ f' ∈ f :: rest, ∀ l ≤ top, fmt.Valid l f') :
    Tables fmt fan top f (clear f m) rest (addNode top 0 f fun _ _ => none) := by
  obtain ⟨apart, nodup⟩ := List.nodup_cons.mp nodup
  refine ⟨tree_root positive (valid f mem_cons_self top (Nat.le_refl top)), nodup, fun f' member =>
    ⟨valid f' (mem_cons_of_mem f member), fun l q here => ?_⟩⟩
  by_cases same : l = top ∧ q = 0
  · obtain ⟨rfl, rfl⟩ := same
    rw [add_node_self] at here
    cases here
    exact apart member
  · rw [add_node_other f _ same] at here
    cases here

theorem tables_write (tables : Tables fmt fan top root m free node) {q f : Nat}
    (here : node 0 q = some f) (i e : Nat) : Tables fmt fan top root (write f i e m) free node :=
  ⟨tree_write tables.tree here i e, tables.nodup, tables.fresh⟩

end

section

/-- The pages that entries lead to from the root, with their levels. -/
inductive Reach (fmt : Format) (fan top root : Nat) (m : Nat → Nat → Nat) : Nat → Nat → Prop
  | root : Reach fmt fan top root m top root
  | child {l p i : Nat} (above : Reach fmt fan top root m (l + 1) p) (small : i < fan)
      (down : fmt.down (m p i) = true) : Reach fmt fan top root m l (fmt.child (m p i))

variable {l f q p : Nat}

theorem reach_iff (tree : Tree fmt fan top root m node) :
    Reach fmt fan top root m l f ↔ ∃ q, node l q = some f := by
  constructor
  · intro reach
    induction reach with
    | root => exact ⟨0, tree.root⟩
    | @child l p i above small down ih =>
      obtain ⟨q, here⟩ := ih
      have present : m p i ≠ 0 := by
        intro missing
        rw [missing, fmt.down_zero] at down
        cases down
      obtain ⟨f, below, entry⟩ := below_link tree here small present
      rw [entry, (tree.valid below).child]
      exact ⟨_, below⟩
  · have climbs : ∀ k l q f, top = l + k → node l q = some f → Reach fmt fan top root m l f := by
      intro k
      induction k with
      | zero =>
        intro l q f high here
        obtain rfl : l = top := high.symm
        obtain rfl := (tree.within here).2 rfl
        obtain rfl := Option.some.inj (tree.root.symm.trans here)
        exact .root
      | succ k ih =>
        intro l q f high here
        obtain ⟨p, above⟩ := tree.parent (by omega) here
        have reach := ih (l + 1) _ p (by omega) above
        have small := mod_lt q tree.positive
        have entry := tree.links above _ small
        rw [div_add_mod, here] at entry
        have valid := tree.valid here
        have step := Reach.child reach small (by rw [entry]; exact valid.down)
        rw [entry] at step
        change Reach fmt fan top root m l (fmt.child (fmt.link l f)) at step
        rwa [valid.child] at step
    rintro ⟨q, here⟩
    obtain ⟨k, high⟩ := Nat.exists_eq_add_of_le (tree.within here).1
    exact climbs k l q f high here

def visit (fmt : Format) (fan : Nat) (m : Nat → Nat → Nat) : Nat → Nat → List Nat
  | 0, p => [p]
  | l + 1, p =>
      ((List.range fan).flatMap fun i =>
        if fmt.down (m p i) then visit fmt fan m l (fmt.child (m p i)) else []) ++ [p]

def Below (fan : Nat) (node : Nat → Nat → Option Nat) : Nat → Nat → Nat → Prop
  | 0, q, f => node 0 q = some f
  | l + 1, q, f => node (l + 1) q = some f ∨ ∃ i < fan, Below fan node l (fan * q + i) f

theorem below_self (here : node l q = some f) : Below fan node l q f := by
  cases l with
  | zero => exact here
  | succ l => exact .inl here

theorem below_place (positive : 0 < fan) (below : Below fan node l q f) :
    ∃ k q', k ≤ l ∧ node k q' = some f ∧ q' / fan ^ (l - k) = q := by
  induction l generalizing q with
  | zero => exact ⟨0, q, Nat.le_refl 0, below, Nat.div_one q⟩
  | succ l ih =>
    obtain here | ⟨i, small, below⟩ := below
    · exact ⟨l + 1, q, Nat.le_refl _, here, by rw [Nat.sub_self, Nat.pow_zero, Nat.div_one]⟩
    · obtain ⟨k, q', low, here, same⟩ := ih below
      refine ⟨k, q', by omega, here, ?_⟩
      rw [show l + 1 - k = l - k + 1 by omega, Nat.pow_succ, ← Nat.div_div_eq_div_mul, same,
        mul_add_div positive, div_eq_of_lt small, Nat.add_zero]

section
variable (tree : Tree fmt fan top root m node)
include tree

theorem place_below (here : node l q = some f) : Below fan node top 0 f := by
  have climbs : ∀ k, l + k ≤ top → Below fan node (l + k) (q / fan ^ k) f := by
    intro k
    induction k with
    | zero =>
      intro _
      rw [Nat.pow_zero, Nat.div_one]
      exact below_self here
    | succ k ih =>
      intro low
      refine .inr ⟨q / fan ^ k % fan, mod_lt _ tree.positive, ?_⟩
      rw [Nat.pow_succ, ← Nat.div_div_eq_div_mul, div_add_mod]
      exact ih (by omega)
  have low := (tree.within here).1
  obtain ⟨p, above⟩ := ancestor tree here (top - l) (by omega)
  have whole := climbs (top - l) (by omega)
  rw [show l + (top - l) = top by omega] at above whole
  rw [(tree.within above).2 rfl] at whole
  exact whole

theorem visit_below (here : node l q = some p) :
    f ∈ visit fmt fan m l p ↔ Below fan node l q f := by
  induction l generalizing q p with
  | zero =>
    unfold visit Below
    rw [mem_singleton, here, Option.some.injEq, eq_comm]
  | succ l ih =>
    unfold visit Below
    rw [mem_append, mem_singleton, mem_flatMap, here, Option.some.injEq, eq_comm,
      or_comm]
    refine or_congr Iff.rfl ?_
    constructor
    · rintro ⟨i, range, member⟩
      have small := List.mem_range.mp range
      split at member
      · next down =>
        have present : m p i ≠ 0 := by
          intro missing
          rw [missing, fmt.down_zero] at down
          cases down
        obtain ⟨f', below, entry⟩ := below_link tree here small present
        rw [entry, (tree.valid below).child] at member
        exact ⟨i, small, (ih below).mp member⟩
      · cases member
    · rintro ⟨i, small, below⟩
      refine ⟨i, List.mem_range.mpr small, ?_⟩
      obtain ⟨k, q', low, there, same⟩ := below_place tree.positive below
      have short := (tree.within here).1
      obtain ⟨f', child⟩ := ancestor tree there (l - k) (by omega)
      rw [show k + (l - k) = l by omega, same] at child
      have entry := tree.links here i small
      rw [child] at entry
      have valid := tree.valid child
      rw [entry]
      change f ∈ if fmt.down (fmt.link l f') then visit fmt fan m l (fmt.child (fmt.link l f')) else []
      rw [if_pos valid.down, valid.child]
      exact (ih child).mpr below

theorem visit_nodup (here : node l q = some p) : (visit fmt fan m l p).Nodup := by
  induction l generalizing q p with
  | zero => exact nodup_singleton p
  | succ l ih =>
    have child : ∀ i ∈ List.range fan, ∀ f ∈ (if fmt.down (m p i) then
        visit fmt fan m l (fmt.child (m p i)) else []), Below fan node l (fan * q + i) f ∧
          ∃ c, node l (fan * q + i) = some c ∧ fmt.child (m p i) = c := by
      intro i range f member
      split at member
      · next down =>
        have present : m p i ≠ 0 := by
          intro missing
          rw [missing, fmt.down_zero] at down
          cases down
        obtain ⟨c, below, entry⟩ := below_link tree here (List.mem_range.mp range) present
        rw [entry, (tree.valid below).child] at member
        exact ⟨(visit_below tree below).mp member, c, below, by rw [entry, (tree.valid below).child]⟩
      · cases member
    unfold visit
    rw [nodup_append]
    refine ⟨?_, nodup_singleton p, ?_⟩
    · rw [nodup_flatMap]
      constructor
      · intro i range
        split
        · next down =>
          have present : m p i ≠ 0 := by
            intro missing
            rw [missing, fmt.down_zero] at down
            cases down
          obtain ⟨c, below, entry⟩ := below_link tree here (List.mem_range.mp range) present
          rw [entry, (tree.valid below).child]
          exact ih below
        · exact nodup_nil
      · refine (nodup_range).pairwise_of_forall_ne fun i range j range' other => ?_
        intro f member member'
        obtain ⟨k, q', low, there, same⟩ := below_place tree.positive (child i range f member).1
        obtain ⟨k', q'', low', there', same'⟩ :=
          below_place tree.positive (child j range' f member').1
        obtain ⟨rfl, rfl⟩ := tree.apart there there'
        omega
    · intro f member f' last same
      obtain rfl := List.mem_singleton.mp last
      subst same
      obtain ⟨i, range, member⟩ := List.mem_flatMap.mp member
      obtain ⟨k, q', low, there, -⟩ := below_place tree.positive (child i range f member).1
      have := (tree.apart here there).1
      omega

/-- A traversal from the root comes once to each page that can be reached, and to no other. -/
theorem visit_reach : (visit fmt fan m top root).Nodup ∧
      ∀ f, f ∈ visit fmt fan m top root ↔ ∃ l, Reach fmt fan top root m l f := by
  refine ⟨visit_nodup tree tree.root, fun f => ?_⟩
  rw [visit_below tree tree.root]
  constructor
  · intro below
    obtain ⟨k, q, -, here, -⟩ := below_place tree.positive below
    exact ⟨k, (reach_iff tree).mpr ⟨q, here⟩⟩
  · rintro ⟨l, reach⟩
    obtain ⟨q, here⟩ := (reach_iff tree).mp reach
    exact place_below tree here

end

def release (fmt : Format) (fan : Nat) : Nat → Nat → (Nat → Nat → Nat) → (Nat → Nat → Nat) × List Nat
  | 0, p, m => (clear p m, [p])
  | l + 1, p, m =>
      let r := (List.range fan).foldl (fun (s : (Nat → Nat → Nat) × List Nat) i =>
        if fmt.down (s.1 p i) then
          let c := release fmt fan l (fmt.child (s.1 p i)) s.1
          (c.1, s.2 ++ c.2)
        else s) (m, [])
      (clear p r.1, r.2 ++ [p])

theorem release_eq {now : Nat → Nat → Nat} (nodup : (visit fmt fan m l p).Nodup)
    (same : ∀ f ∈ visit fmt fan m l p, now f = m f) :
    (release fmt fan l p now).2 = visit fmt fan m l p ∧
      ∀ f, f ∉ visit fmt fan m l p → (release fmt fan l p now).1 f = now f := by
  induction l generalizing p now with
  | zero =>
    refine ⟨rfl, fun f other => ?_⟩
    exact clear_other (fun here => other (List.mem_singleton.mpr here)) now
  | succ l ih =>
    let part := fun i => if fmt.down (m p i) then visit fmt fan m l (fmt.child (m p i)) else []
    have whole : visit fmt fan m (l + 1) p = (List.range fan).flatMap part ++ [p] := rfl
    obtain ⟨parts, -, last⟩ := List.nodup_append.mp nodup
    have loop : ∀ (is : List Nat) (s : (Nat → Nat → Nat) × List Nat), (is.flatMap part).Nodup →
        (∀ f ∈ is.flatMap part ++ [p], s.1 f = m f) → p ∉ is.flatMap part →
        (is.foldl (fun (s : (Nat → Nat → Nat) × List Nat) i =>
            if fmt.down (s.1 p i) then
              let c := release fmt fan l (fmt.child (s.1 p i)) s.1
              (c.1, s.2 ++ c.2)
            else s) s).2 = s.2 ++ is.flatMap part ∧
          ∀ f, f ∉ is.flatMap part →
            (is.foldl (fun (s : (Nat → Nat → Nat) × List Nat) i =>
              if fmt.down (s.1 p i) then
                let c := release fmt fan l (fmt.child (s.1 p i)) s.1
                (c.1, s.2 ++ c.2)
              else s) s).1 f = s.1 f := by
      intro is
      induction is with
      | nil => exact fun s _ _ _ => ⟨(append_nil _).symm, fun _ _ => rfl⟩
      | cons i rest ih_rest =>
        intro s nodup same apart
        have here : s.1 p = m p := same p (mem_append_right _ (mem_singleton_self p))
        rw [flatMap_cons] at nodup same apart
        obtain ⟨first, others, disjoint⟩ := List.nodup_append.mp nodup
        rw [foldl_cons, flatMap_cons, here]
        by_cases down : fmt.down (m p i) = true
        · have part_ : part i = visit fmt fan m l (fmt.child (m p i)) := if_pos down
          rw [part_] at first same apart disjoint
          obtain ⟨pages, rest_⟩ := ih first fun f member =>
            same f (mem_append_left _ (mem_append_left _ member))
          rw [if_pos down]
          obtain ⟨out, kept⟩ := ih_rest
            ((release fmt fan l (fmt.child (m p i)) s.1).1,
              s.2 ++ (release fmt fan l (fmt.child (m p i)) s.1).2) others
            (fun f member => by
              have other : f ∉ visit fmt fan m l (fmt.child (m p i)) := by
                intro before
                obtain inside | end_ := List.mem_append.mp member
                · exact disjoint f before f inside rfl
                · rw [List.mem_singleton.mp end_] at before
                  exact apart (mem_append_left _ before)
              refine (rest_ f other).trans (same f ?_)
              obtain inside | end_ := List.mem_append.mp member
              · exact mem_append_left _ (mem_append_right _ inside)
              · exact mem_append_right _ end_)
            fun member => apart (mem_append_right _ member)
          rw [part_]
          refine ⟨by rw [out, pages, List.append_assoc], fun f other => ?_⟩
          rw [mem_append, not_or] at other
          rw [kept f other.2]
          exact rest_ f other.1
        · have part_ : part i = [] := if_neg down
          rw [if_neg down, part_, nil_append]
          rw [part_, nil_append] at same apart
          exact ih_rest s others same apart
    obtain ⟨out, kept⟩ := loop (List.range fan) (now, []) parts same fun member =>
      last p member p (mem_singleton_self p) rfl
    constructor
    · rw [whole]
      unfold release
      dsimp only
      rw [out, nil_append]
    · intro f other
      rw [whole, mem_append, mem_singleton, not_or] at other
      unfold release
      dsimp only
      rw [clear_other other.2]
      exact kept f other.1

end
end RadixTables
