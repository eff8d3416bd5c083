import Mathlib.Data.List.Basic

/- Byte-addressed little-endian memory. Addresses are unbounded Nat; a machine that
   wraps its addresses reduces them before it calls these functions. -/
namespace ByteMemory

abbrev Mem := Nat → BitVec 8

variable (m : Mem)

def write8 (a : Nat) (v : BitVec 8) : Mem := fun x => if x = a then v else m x

def read16 (a : Nat) : BitVec 16 := m (a + 1) ++ m a

def write16 (a : Nat) (v : BitVec 16) : Mem :=
  write8 (write8 m a (v.extractLsb' 0 8)) (a + 1) (v.extractLsb' 8 8)

def read32 (a : Nat) : BitVec 32 := read16 m (a + 2) ++ read16 m a

def write32 (a : Nat) (v : BitVec 32) : Mem :=
  write16 (write16 m a (v.extractLsb' 0 16)) (a + 2) (v.extractLsb' 16 16)

def read64 (a : Nat) : BitVec 64 := read32 m (a + 4) ++ read32 m a

def write64 (a : Nat) (v : BitVec 64) : Mem :=
  write32 (write32 m a (v.extractLsb' 0 32)) (a + 4) (v.extractLsb' 32 32)

def writeWords (m : Mem) (a : Nat) : List (BitVec 32) → Mem
  | [] => m
  | w :: rest => writeWords (write32 m a w) (a + 4) rest

def copyInto (dst n : Nat) (src : Nat → BitVec 8) : Mem :=
  fun x => if dst ≤ x ∧ x < dst + n then src (x - dst) else m x

def gather (iov : Nat → Nat) : Mem := fun i => m (iov i)

def scatter (m : Mem) (iov : Nat → Nat) (image : Mem) : Nat → Mem
  | 0 => m
  | n + 1 => write8 (scatter m iov image n) (iov n) (image n)

@[simp] theorem write8_same (m : Mem) (a : Nat) (v : BitVec 8) : write8 m a v a = v := by
  simp [write8]

variable {a x n i b : Nat} {iov : Nat → Nat} {m k : Mem}

theorem write8_other (m : Mem) (v : BitVec 8) (apart : x ≠ a) : write8 m a v x = m x := by
  simp [write8, apart]

theorem write16_other (m : Mem) (v : BitVec 16) (low : x ≠ a) (high : x ≠ a + 1) :
    write16 m a v x = m x := by
  simp [write16, write8, low, high]

theorem write32_other (m : Mem) (v : BitVec 32) (outside : x < a ∨ a + 4 ≤ x) :
    write32 m a v x = m x := by
  unfold write32
  rw [write16_other _ _ (by omega) (by omega), write16_other _ _ (by omega) (by omega)]

theorem scatter_other (m : Mem) (image : Mem) (apart : ∀ i, i < n → x ≠ iov i) :
    scatter m iov image n x = m x := by
  induction n with
  | zero => rfl
  | succ n ih =>
    rw [scatter, write8_other _ _ (apart n (Nat.lt_succ_self n))]
    exact ih fun i bound => apart i (Nat.lt_succ_of_lt bound)

theorem scatter_same (m : Mem) (image : Mem) (inside : i < n)
    (apart : ∀ j, j < n → j ≠ i → iov i ≠ iov j) : scatter m iov image n (iov i) = image i := by
  induction n with
  | zero => cases inside
  | succ n ih =>
    by_cases last : i = n
    · rw [scatter, last, write8_same]
    · have other : iov i ≠ iov n := apart n (Nat.lt_succ_self n) (Ne.symm last)
      rw [scatter, write8_other _ _ other]
      exact ih (by omega) fun j bound => apart j (Nat.lt_succ_of_lt bound)

def Distinct (iov : Nat → Nat) (n : Nat) : Prop :=
  ∀ i j, i < n → j < n → j ≠ i → iov i ≠ iov j

theorem gather_scatter (m : Mem) (image : Mem) (distinct : Distinct iov n) (inside : i < n) :
    gather (scatter m iov image n) iov i = image i :=
  scatter_same m image inside fun j bound other => distinct i j inside bound other

structure Area where
  iov : Nat → Nat
  size : Nat
  image : Mem

/-- The memory after the areas have been written, the head of the list last. -/
def overwritten (m : Mem) : List Area → Mem
  | [] => m
  | area :: earlier => scatter (overwritten m earlier) area.iov area.image area.size

/-- Where one of the areas covers the byte at `a`, the last of them that does leaves a right one. -/
def Leaves (right : BitVec 8 → Prop) (a : Nat) : List Area → Prop
  | [] => True
  | area :: earlier => (∀ i < area.size, area.iov i = a → right (area.image i)) ∧
      ((∀ i < area.size, a ≠ area.iov i) → Leaves right a earlier)

theorem overwritten_right {right : BitVec 8 → Prop} (before : right (m a)) (areas : List Area)
    (apart : ∀ area ∈ areas, Distinct area.iov area.size) :
    right (overwritten m areas a) ↔ Leaves right a areas := by
  induction areas with
  | nil => exact iff_of_true before trivial
  | cons area earlier ih =>
    obtain ⟨distinct, apart⟩ := List.forall_mem_cons.mp apart
    unfold overwritten Leaves
    by_cases covered : ∃ i < area.size, area.iov i = a
    · obtain ⟨i, inside, rfl⟩ := covered
      have value : scatter (overwritten m earlier) area.iov area.image area.size (area.iov i) =
          area.image i := gather_scatter _ _ distinct inside
      rw [value]
      constructor
      · intro right_
        refine ⟨fun j bound same => ?_, fun outside => absurd rfl (outside i inside)⟩
        have index : j = i := not_not.mp fun other => distinct j i bound inside (Ne.symm other) same
        rw [index]
        exact right_
      · exact fun leaves => leaves.1 i inside rfl
    · have outside : ∀ i < area.size, a ≠ area.iov i :=
        fun i inside same => covered ⟨i, inside, same.symm⟩
      rw [scatter_other _ _ outside, ih apart]
      constructor
      · exact fun leaves => ⟨fun i inside same => absurd same.symm (outside i inside), fun _ => leaves⟩
      · exact fun leaves => leaves.2 outside

theorem read16_congr (low : m a = k a) (high : m (a + 1) = k (a + 1)) :
    read16 m a = read16 k a := by
  simp [read16, low, high]

@[simp] theorem read16_write16_same (m : Mem) (a : Nat) (v : BitVec 16) :
    read16 (write16 m a v) a = v := by
  have low : write16 m a v a = v.extractLsb' 0 8 := by simp [write16, write8]
  have high : write16 m a v (a + 1) = v.extractLsb' 8 8 := by simp [write16]
  rw [read16, low, high]
  exact @BitVec.extractLsb'_append_extractLsb' 8 8 v

theorem read16_write16_other (m : Mem) (v : BitVec 16) (apart : b + 2 ≤ a ∨ a + 2 ≤ b) :
    read16 (write16 m a v) b = read16 m b :=
  read16_congr (write16_other m v (by omega) (by omega)) (write16_other m v (by omega) (by omega))

theorem read16_write32_other (m : Mem) (v : BitVec 32) (apart : b + 2 ≤ a ∨ a + 4 ≤ b) :
    read16 (write32 m a v) b = read16 m b :=
  read16_congr (write32_other m v (by omega)) (write32_other m v (by omega))

@[simp] theorem read32_write32_same (m : Mem) (a : Nat) (v : BitVec 32) :
    read32 (write32 m a v) a = v := by
  have low : read16 (write32 m a v) a = v.extractLsb' 0 16 := by
    rw [write32, read16_write16_other _ _ (by omega), read16_write16_same]
  have high : read16 (write32 m a v) (a + 2) = v.extractLsb' 16 16 := by
    rw [write32, read16_write16_same]
  rw [read32, low, high]
  exact @BitVec.extractLsb'_append_extractLsb' 16 16 v

theorem read32_write32_other (m : Mem) (v : BitVec 32) (apart : b + 4 ≤ a ∨ a + 4 ≤ b) :
    read32 (write32 m a v) b = read32 m b := by
  simp only [read32]
  rw [read16_write32_other m v (by omega), read16_write32_other m v (by omega)]

theorem read32_write16_other (m : Mem) (v : BitVec 16) (apart : b + 4 ≤ a ∨ a + 2 ≤ b) :
    read32 (write16 m a v) b = read32 m b := by
  simp only [read32]
  rw [read16_write16_other m v (by omega), read16_write16_other m v (by omega)]

theorem copyInto_inside (m : Mem) {dst : Nat} (src : Nat → BitVec 8) (inside : i < n) :
    copyInto m dst n src (dst + i) = src i := by
  simp [copyInto, inside]

theorem read32_congr (same : ∀ i, i < 4 → m (a + i) = k (b + i)) : read32 m a = read32 k b := by
  have first : m a = k b := same 0 (by omega)
  have second : m (a + 1) = k (b + 1) := same 1 (by omega)
  have third : m (a + 2) = k (b + 2) := same 2 (by omega)
  have fourth : m (a + 2 + 1) = k (b + 2 + 1) := same 3 (by omega)
  simp only [read32, read16, first, second, third, fourth]

theorem read64_congr (same : ∀ i, i < 8 → m (a + i) = k (b + i)) : read64 m a = read64 k b := by
  have low : read32 m a = read32 k b := read32_congr fun i bound => same i (by omega)
  have high : read32 m (a + 4) = read32 k (b + 4) := by
    apply read32_congr
    intro i bound
    rw [Nat.add_assoc, Nat.add_assoc]
    exact same (4 + i) (by omega)
  simp only [read64, low, high]

@[simp] theorem read64_write64_same (m : Mem) (a : Nat) (v : BitVec 64) :
    read64 (write64 m a v) a = v := by
  have low : read32 (write64 m a v) a = v.extractLsb' 0 32 := by
    rw [write64, read32_write32_other _ _ (by omega), read32_write32_same]
  have high : read32 (write64 m a v) (a + 4) = v.extractLsb' 32 32 := by
    rw [write64, read32_write32_same]
  rw [read64, low, high]
  exact @BitVec.extractLsb'_append_extractLsb' 32 32 v

theorem read32_writeWords_below (ws : List (BitVec 32)) (m : Mem) (a b : Nat)
    (below : b + 4 ≤ a) : read32 (writeWords m a ws) b = read32 m b := by
  induction ws generalizing m a with
  | nil => rfl
  | cons w rest ih =>
    rw [writeWords, ih _ _ (by omega)]
    exact read32_write32_other m w (by omega)

theorem read32_writeWords (ws : List (BitVec 32)) (m : Mem) (a j : Nat) (w : BitVec 32)
    (stored : ws[j]? = some w) : read32 (writeWords m a ws) (a + 4 * j) = w := by
  induction ws generalizing m a j with
  | nil => simp at stored
  | cons first rest ih =>
    cases j with
    | zero =>
      have below := read32_writeWords_below rest (write32 m a first) (a + 4) a (by omega)
      exact below.trans (by simpa using stored)
    | succ j =>
      have tail := ih (write32 m a first) (a + 4) j (by simpa using stored)
      rw [writeWords, show a + 4 * (j + 1) = a + 4 + 4 * j by omega]
      exact tail

end ByteMemory
