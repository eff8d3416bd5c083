import Bhyve.Lib.ByteMemory

/- A byte memory that records the address of every store, the store loops that copy and
   fill two-byte cells, and what it means for a piece of code to stay inside a range. -/
namespace TracedMemory
open ByteMemory

structure Traced where
  mem : Mem
  log : List Nat

def store8 (t : Traced) (a : Nat) (v : BitVec 8) : Traced :=
  ⟨write8 t.mem a v, t.log ++ [a]⟩

def store16 (t : Traced) (a : Nat) (v : BitVec 16) : Traced :=
  store8 (store8 t a (v.extractLsb' 0 8)) (a + 1) (v.extractLsb' 8 8)

def moveCells : Nat → Nat → Nat → Traced → Traced
  | 0, _, _, t => t
  | n + 1, dst, src, t =>
      let low := store8 t dst (t.mem src)
      moveCells n (dst + 2) (src + 2) (store8 low (dst + 1) (low.mem (src + 1)))

def fillLowBytes (v : BitVec 8) : Nat → Nat → Traced → Traced
  | 0, _, t => t
  | n + 1, dst, t => fillLowBytes v n (dst + 2) (store8 t dst v)

def fillCells (v : BitVec 16) : Nat → Nat → Traced → Traced
  | 0, _, t => t
  | n + 1, dst, t => fillCells v n (dst + 2) (store16 t dst v)

/-- From t to t' only addresses in [lo, hi) were stored to. -/
structure Confined (lo hi : Nat) (t t' : Traced) : Prop where
  unchanged : ∀ x, x < lo ∨ hi ≤ x → t'.mem x = t.mem x
  stores : ∃ added, t'.log = t.log ++ added ∧ ∀ a ∈ added, lo ≤ a ∧ a < hi

theorem confined_refl (lo hi : Nat) (t : Traced) : Confined lo hi t t :=
  ⟨fun _ _ => rfl, [], by simp, by simp⟩

theorem confined_trans {lo hi : Nat} {a b c : Traced} (first : Confined lo hi a b)
    (second : Confined lo hi b c) : Confined lo hi a c := by
  obtain ⟨early, earlyLog, earlyIn⟩ := first.stores
  obtain ⟨late, lateLog, lateIn⟩ := second.stores
  refine ⟨?_, early ++ late, ?_, ?_⟩
  · intro x outside
    exact (second.unchanged x outside).trans (first.unchanged x outside)
  · rw [lateLog, earlyLog, List.append_assoc]
  · intro x member
    rcases List.mem_append.mp member with before | after
    · exact earlyIn x before
    · exact lateIn x after

theorem confined_widen {lo hi lo' hi' : Nat} {t t' : Traced} (inside : Confined lo hi t t')
    (lower : lo' ≤ lo) (upper : hi ≤ hi') : Confined lo' hi' t t' := by
  obtain ⟨added, log, bounds⟩ := inside.stores
  refine ⟨?_, added, log, ?_⟩
  · intro x outside
    exact inside.unchanged x (by omega)
  · intro a member
    have := bounds a member
    omega

theorem confined_store8 {lo hi a : Nat} (t : Traced) (v : BitVec 8) (lower : lo ≤ a)
    (upper : a < hi) : Confined lo hi t (store8 t a v) := by
  refine ⟨?_, [a], rfl, ?_⟩
  · intro x outside
    exact write8_other t.mem v (by omega)
  · intro b member
    rw [List.mem_singleton.mp member]
    exact ⟨lower, upper⟩

theorem confined_store16 {lo hi a : Nat} (t : Traced) (v : BitVec 16) (lower : lo ≤ a)
    (upper : a + 2 ≤ hi) : Confined lo hi t (store16 t a v) :=
  confined_trans (confined_store8 t _ lower (by omega)) (confined_store8 _ _ (by omega) (by omega))

theorem confined_moveCells (n : Nat) : ∀ (dst src : Nat) (t : Traced),
    Confined dst (dst + 2 * n) t (moveCells n dst src t) := by
  induction n with
  | zero => intro dst src t; exact confined_refl _ _ t
  | succ n ih =>
    intro dst src t
    have first := confined_store8 t (t.mem src) (Nat.le_refl dst) (by omega : dst < dst + 2 * (n + 1))
    have second := confined_store8 (store8 t dst (t.mem src)) ((store8 t dst (t.mem src)).mem (src + 1))
      (by omega : dst ≤ dst + 1) (by omega : dst + 1 < dst + 2 * (n + 1))
    exact confined_trans (confined_trans first second)
      (confined_widen (ih (dst + 2) (src + 2) _) (by omega) (by omega))

theorem confined_fillLowBytes (v : BitVec 8) (n : Nat) : ∀ (dst : Nat) (t : Traced),
    Confined dst (dst + 2 * n) t (fillLowBytes v n dst t) := by
  induction n with
  | zero => intro dst t; exact confined_refl _ _ t
  | succ n ih =>
    intro dst t
    exact confined_trans (confined_store8 t v (Nat.le_refl dst) (by omega))
      (confined_widen (ih (dst + 2) _) (by omega) (by omega))

theorem confined_fillCells (v : BitVec 16) (n : Nat) : ∀ (dst : Nat) (t : Traced),
    Confined dst (dst + 2 * n) t (fillCells v n dst t) := by
  induction n with
  | zero => intro dst t; exact confined_refl _ _ t
  | succ n ih =>
    intro dst t
    exact confined_trans (confined_store16 t v (Nat.le_refl dst) (by omega))
      (confined_widen (ih (dst + 2) _) (by omega) (by omega))

theorem moveCells_mem (n : Nat) : ∀ (dst gap : Nat) (t : Traced) (x : Nat), 0 < gap →
    dst ≤ x → x < dst + 2 * n → (moveCells n dst (dst + gap) t).mem x = t.mem (x + gap) := by
  induction n with
  | zero => intro dst gap t x _ lower upper; omega
  | succ n ih =>
    intro dst gap t x ahead lower upper
    simp only [moveCells]
    rw [show dst + gap + 2 = dst + 2 + gap by omega]
    by_cases later : dst + 2 ≤ x
    · rw [ih (dst + 2) gap _ x ahead later (by omega)]
      simp only [store8]
      rw [write8_other _ _ (by omega), write8_other _ _ (by omega)]
    · rw [(confined_moveCells n (dst + 2) (dst + 2 + gap) _).unchanged x (by omega)]
      simp only [store8]
      by_cases low : x = dst
      · subst low
        rw [write8_other _ _ (by omega), write8_same]
      · have high : x = dst + 1 := by omega
        subst high
        rw [write8_same, write8_other _ _ (by omega)]
        congr 1
        omega

theorem moveCells_mem_behind (n : Nat) : ∀ (dst src : Nat) (t : Traced) (i : Nat),
    src + 2 * n ≤ dst → i < 2 * n → (moveCells n dst src t).mem (dst + i) = t.mem (src + i) := by
  induction n with
  | zero => intro dst src t i _ inside; omega
  | succ n ih =>
    intro dst src t i behind inside
    simp only [moveCells]
    by_cases later : 2 ≤ i
    · obtain ⟨k, rfl⟩ := Nat.exists_eq_add_of_le later
      rw [← Nat.add_assoc, ih (dst + 2) (src + 2) _ k (by omega) (by omega)]
      simp only [store8]
      rw [write8_other _ _ (by omega), write8_other _ _ (by omega), Nat.add_assoc]
    · rw [(confined_moveCells n (dst + 2) (src + 2) _).unchanged (dst + i) (by omega)]
      simp only [store8]
      by_cases low : i = 0
      · rw [low, write8_other _ _ (by omega)]
        exact write8_same _ _ _
      · obtain rfl : i = 1 := by omega
        rw [write8_same, write8_other _ _ (by omega)]

theorem fillCells_mem (v : BitVec 16) (n : Nat) : ∀ (dst : Nat) (t : Traced) (k : Nat), k < n →
    read16 (fillCells v n dst t).mem (dst + 2 * k) = v := by
  induction n with
  | zero => intro dst t k inside; omega
  | succ n ih =>
    intro dst t k inside
    simp only [fillCells]
    cases k with
    | zero =>
      have kept := (confined_fillCells v n (dst + 2) (store16 t dst v)).unchanged
      rw [read16_congr (kept _ (by omega)) (kept _ (by omega))]
      exact read16_write16_same t.mem dst v
    | succ k =>
      rw [show dst + 2 * (k + 1) = dst + 2 + 2 * k by omega]
      exact ih (dst + 2) _ k (by omega)

end TracedMemory
