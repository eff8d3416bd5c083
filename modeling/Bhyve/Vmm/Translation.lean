import Bhyve.Vmm.PageWalk

/-!
The walk against one that only reads: the walk of the hypervisor replies the same and changes only
the accessed flag of the entries it passed and the dirty flag of the last one on a write.
-/
namespace VmmPageWalk
open VmmDecoder BitVec

structure Reference where
  outcome : Outcome
  exception : Option Exception
  trail : List (BitVec 64)
  leaf : Option (BitVec 64)

section
variable {w : Nat} (hold : BitVec 64 → Nat → Bool) (usermode : Bool) (prot : Prot)
  (gla : BitVec 64)

def permitted (pte : BitVec w) : Bool :=
  pte.getLsbD pgV && (!usermode || pte.getLsbD pgU) && (!prot.write || pte.getLsbD pgRw)

def failed (rsvd : Bool) (pte : BitVec w) (trail : List (BitVec 64)) : Reference :=
  ⟨.guestFault, some (.pf (pfErrorCode usermode prot rsvd pte) gla), trail, none⟩

def translated (fmt : Format w) (ptpshift : Nat) (address : BitVec 64) (pte : BitVec w) :
    Reference :=
  ⟨.gpa (pageAddress gla (fmt.frame ptpshift pte) ptpshift), none, [address], some address⟩

def refWalk (fmt : Format w) (mem : Memory w) : Nat → BitVec 64 → Reference
  | 0, ptpphys =>
      let address := entryAddress w fmt.indexBits (fmt.table ptpphys) gla 12
      if hold (fmt.table ptpphys) 4096 = false then ⟨.efault, none, [], none⟩
      else if permitted usermode prot (mem address) = false then
        failed usermode prot gla false (mem address) []
      else translated gla fmt 12 address (mem address)
  | level + 1, ptpphys =>
      let ptpshift := 12 + (level + 1) * fmt.indexBits
      let address := entryAddress w fmt.indexBits (fmt.table ptpphys) gla ptpshift
      if hold (fmt.table ptpphys) 4096 = false then ⟨.efault, none, [], none⟩
      else if permitted usermode prot (mem address) = false then
        failed usermode prot gla false (mem address) []
      else if (mem address).getLsbD pgPs then
        if fmt.reserved ptpshift then failed usermode prot gla true (mem address) [address]
        else translated gla fmt ptpshift address (mem address)
      else
        let below := refWalk fmt mem level ((mem address).setWidth 64)
        { below with trail := address :: below.trail }

def refPae (cr3 : BitVec 64) (mem : Memory 64) : Reference :=
  let pte := mem (paeAddress gla cr3)
  if hold (cr3 &&& 0xffffffe0) 32 = false then ⟨.efault, none, [], none⟩
  else if pte.getLsbD pgV = false then failed usermode prot gla false pte []
  else refWalk hold usermode prot gla format64 mem 1 pte

def refMode (cr3 : BitVec 64) : (mode : PagingMode) → Memory (entryBits mode) → Reference
  | .flat, _ => ⟨.gpa gla, none, [], none⟩
  | .bits32, mem => refWalk hold usermode prot gla format32 mem 1 cr3
  | .pae, mem => refPae hold usermode prot gla cr3 mem
  | .bits64, mem => refWalk hold usermode prot gla format64 mem 3 cr3

end

def reference (hold : BitVec 64 → Nat → Bool) (paging : GuestPaging) (gla : BitVec 64)
    (prot : Prot) (mem : Memory (entryBits paging.pagingMode)) : Reference :=
  if vieCanonicalCheck paging.cpuMode gla then ⟨.guestFault, some .gp, [], none⟩
  else refMode hold (usermodeOf paging) prot gla paging.cr3 paging.pagingMode mem

def marked {w : Nat} (flag : Nat) (trail : List (BitVec 64)) (mem : Memory w) : Memory w :=
  fun address => if address ∈ trail then withFlag (mem address) flag else mem address

/-- The accessed flag on the trail, the dirty flag on the leaf of a write. -/
def touched {w : Nat} (write : Bool) (r : Reference) (mem : Memory w) : Memory w :=
  fun address =>
    if write = true ∧ r.leaf = some address then withFlag (marked pgA r.trail mem address) pgM
    else marked pgA r.trail mem address

def Alike {w : Nat} (p q : BitVec w) : Prop :=
  ∀ i, i ≠ pgA → i ≠ pgM → p.getLsbD i = q.getLsbD i

def AlikeTables {w : Nat} (mem mem' : Memory w) : Prop := ∀ address, Alike (mem address) (mem' address)

variable {w : Nat}

theorem with_flag_bit (pte : BitVec w) (flag i : Nat) :
    (withFlag pte flag).getLsbD i = (pte.getLsbD i || (decide (flag < w) && decide (flag = i))) := by
  rw [withFlag, getLsbD_or, getLsbD_twoPow]

theorem alike_with_flag (pte : BitVec w) {flag : Nat} (either : flag = pgA ∨ flag = pgM) :
    Alike pte (withFlag pte flag) := by
  intro i other other'
  rw [with_flag_bit]
  have apart : flag ≠ i := by
    rintro rfl
    exact either.elim other other'
  rw [decide_eq_false apart, Bool.and_false, Bool.or_false]

theorem with_flag_set {pte : BitVec w} {flag : Nat} (set_ : pte.getLsbD flag = true) :
    withFlag pte flag = pte := by
  refine eq_of_getLsbD_eq fun i bound => ?_
  rw [with_flag_bit]
  by_cases same : flag = i
  · rw [← same, set_, Bool.true_or]
  · rw [decide_eq_false same, Bool.and_false, Bool.or_false]

theorem with_flag_twice (pte : BitVec w) (flag : Nat) :
    withFlag (withFlag pte flag) flag = withFlag pte flag := by
  rw [withFlag, withFlag, BitVec.or_assoc, BitVec.or_self]

theorem marked_alike (trail : List (BitVec 64)) (mem : Memory w) :
    AlikeTables mem (marked pgA trail mem) := by
  intro address
  unfold marked
  split
  · exact alike_with_flag _ (.inl rfl)
  · exact fun _ _ _ => rfl

theorem marked_cons (flag : Nat) (address : BitVec 64) (trail : List (BitVec 64)) (mem : Memory w) :
    marked flag trail (marked flag [address] mem) = marked flag (address :: trail) mem := by
  funext other
  simp only [marked, List.mem_cons, List.not_mem_nil, or_false]
  by_cases same : other = address
  · by_cases inside : other ∈ trail
    · rw [if_pos inside, if_pos same, if_pos (.inl same), with_flag_twice]
    · rw [if_neg inside, if_pos same, if_pos (.inl same)]
  · by_cases inside : other ∈ trail
    · rw [if_pos inside, if_neg same, if_pos (.inr inside)]
    · rw [if_neg inside, if_neg same, if_neg (not_or.mpr ⟨same, inside⟩)]

theorem marked_twice (flag : Nat) (trail : List (BitVec 64)) (mem : Memory w) :
    marked flag trail (marked flag trail mem) = marked flag trail mem := by
  funext address
  simp only [marked]
  by_cases inside : address ∈ trail
  · rw [if_pos inside, if_pos inside, with_flag_twice]
  · rw [if_neg inside, if_neg inside]

/-- A format in which neither flag has a part in the address of a table or of a page. -/
structure Lawful {w : Nat} (fmt : Format w) : Prop where
  table : ∀ {p q : BitVec w}, Alike p q → fmt.table (p.setWidth 64) = fmt.table (q.setWidth 64)
  frame : ∀ {p q : BitVec w} {s : Nat}, 12 ≤ s → Alike p q → fmt.frame s p = fmt.frame s q

theorem alike_shifted {p q : BitVec w} (alike : Alike p q) {s : Nat} (high : 12 ≤ s) :
    p >>> s = q >>> s := by
  refine eq_of_getLsbD_eq fun i bound => ?_
  rw [getLsbD_ushiftRight, getLsbD_ushiftRight]
  have apart : s + i ≠ pgA ∧ s + i ≠ pgM := by
    constructor
    · unfold pgA
      omega
    · unfold pgM
      omega
  exact alike (s + i) apart.1 apart.2

theorem format32_lawful : Lawful format32 := by
  constructor
  · intro p q alike
    refine eq_of_getLsbD_eq fun i bound => ?_
    have low : (~~~0xfff : BitVec 64).getLsbD i = decide (12 ≤ i) := by
      revert i
      decide
    simp only [format32, getLsbD_and, getLsbD_setWidth, low]
    by_cases high : 12 ≤ i
    · have same := congrArg (fun x => x.getLsbD (i - 12)) (alike_shifted alike (Nat.le_refl 12))
      simp only [getLsbD_ushiftRight, Nat.add_sub_cancel' high] at same
      rw [same]
    · rw [decide_eq_false high, Bool.and_false, Bool.and_false]
  · intro p q s high alike
    simp only [format32, alike_shifted alike high]

theorem format64_lawful : Lawful format64 := by
  constructor
  · intro p q alike
    simp only [format64, setWidth_eq, alike_shifted alike (Nat.le_refl 12)]
  · intro p q s high alike
    simp only [format64, alike_shifted alike high]

section
variable {w : Nat} {hold : BitVec 64 → Nat → Bool} {usermode : Bool} {prot : Prot}
  {gla : BitVec 64} {fmt : Format w}

theorem alike_flags {p q : BitVec w} (alike : Alike p q) :
    permitted usermode prot p = permitted usermode prot q ∧ p.getLsbD pgV = q.getLsbD pgV ∧
      p.getLsbD pgPs = q.getLsbD pgPs := by
  have valid := alike pgV (by decide) (by decide)
  have user := alike pgU (by decide) (by decide)
  have write := alike pgRw (by decide) (by decide)
  have large := alike pgPs (by decide) (by decide)
  refine ⟨?_, valid, large⟩
  rw [permitted, permitted, valid, user, write]

theorem alike_failed {p q : BitVec w} (alike : Alike p q) (rsvd : Bool) (trail : List (BitVec 64)) :
    failed usermode prot gla rsvd p trail = failed usermode prot gla rsvd q trail := by
  have valid := alike pgV (by decide) (by decide)
  rw [failed, failed, pfErrorCode, pfErrorCode, valid]

theorem alike_translated (lawful : Lawful fmt) {p q : BitVec w} (alike : Alike p q) {s : Nat}
    (high : 12 ≤ s) (address : BitVec 64) :
    translated gla fmt s address p = translated gla fmt s address q := by
  rw [translated, translated, lawful.frame high alike]

theorem ref_walk_congr (lawful : Lawful fmt) {mem mem' : Memory w} (alike : AlikeTables mem mem')
    (level : Nat) : ∀ {ptpphys ptpphys' : BitVec 64}, fmt.table ptpphys = fmt.table ptpphys' →
      refWalk hold usermode prot gla fmt mem level ptpphys =
        refWalk hold usermode prot gla fmt mem' level ptpphys' := by
  induction level with
  | zero =>
    intro ptpphys ptpphys' table
    have entry := alike (entryAddress w fmt.indexBits (fmt.table ptpphys') gla 12)
    rw [refWalk, refWalk, table, (alike_flags entry).1, alike_failed entry,
      alike_translated lawful entry (Nat.le_refl 12)]
  | succ level ih =>
    intro ptpphys ptpphys' table
    have entry := alike (entryAddress w fmt.indexBits (fmt.table ptpphys') gla
      (12 + (level + 1) * fmt.indexBits))
    obtain ⟨allowed, -, large⟩ := @alike_flags w usermode prot _ _ entry
    rw [refWalk, refWalk, table, allowed, large, alike_failed entry, alike_failed entry,
      alike_translated lawful entry (Nat.le_add_right ..), ih (lawful.table entry)]

theorem refused_eq (pte : BitVec w) : refused usermode prot pte = !permitted usermode prot pte := by
  rw [refused, permitted]
  cases pte.getLsbD pgV <;> cases pte.getLsbD pgU <;> cases pte.getLsbD pgRw <;>
    cases usermode <;> cases prot.write <;> rfl

theorem marked_one (flag : Nat) (mem : Memory w) (address : BitVec 64) :
    Function.update mem address (withFlag (mem address) flag) = marked flag [address] mem := by
  funext other
  simp only [marked, List.mem_singleton]
  by_cases same : other = address
  · rw [if_pos same, same, Function.update_self]
  · rw [if_neg same, Function.update_of_ne same]

variable {mem : Memory w} {address : BitVec 64} {r : Reference}

theorem marked_held {flag : Nat} (held : (mem address).getLsbD flag = true) :
    marked flag [address] mem = mem := by
  rw [← marked_one, with_flag_set held, Function.update_eq_self]

theorem set_flag_fresh (flag : Nat) (mem : Memory w) (address : BitVec 64) :
    setFlag true flag mem address (mem address) = some (marked flag [address] mem) := by
  unfold setFlag
  cases held : (mem address).getLsbD flag with
  | true => simp only [Bool.not_true, Bool.and_false, Bool.false_eq_true, ↓reduceIte,
      marked_held held]
  | false => simp only [Bool.not_false, Bool.and_true, ↓reduceIte, atomicCmpset, marked_one]

theorem set_flag_unwanted (flag : Nat) (mem : Memory w) (address : BitVec 64) (pte : BitVec w) :
    setFlag false flag mem address pte = some mem := rfl

/-- Where the loop stops, next to the reference: the copy of the last entry is as the tables
    had it, or with the accessed flag the walk has set. -/
def Follows (gla : BitVec 64) (fmt : Format w) (mem : Memory w) (r : Reference) : Stop w → Prop
  | .efault => r.outcome = .efault ∧ r.exception = none ∧ r.leaf = none
  | .fault pfcode => r.outcome = .guestFault ∧ r.exception = some (.pf pfcode gla) ∧ r.leaf = none
  | .page address pte ptpshift =>
      r.leaf = some address ∧ address ∈ r.trail ∧ r.exception = none ∧
        (pte = mem address ∨ pte = withFlag (mem address) pgA) ∧
        r.outcome = .gpa (pageAddress gla (fmt.frame ptpshift pte) ptpshift)
  | .restart => False
  | .down _ _ _ => False

def passed (checkOnly : Bool) (address : BitVec 64) (mem : Memory w) : Memory w :=
  if checkOnly then mem else marked pgA [address] mem

theorem set_accessed (checkOnly : Bool) (mem : Memory w) (address : BitVec 64) :
    setFlag (!checkOnly) pgA mem address (mem address) = some (passed checkOnly address mem) := by
  cases checkOnly with
  | true => rfl
  | false => exact set_flag_fresh pgA mem address

theorem visit_cases (checkOnly : Bool) (nlevels : Nat) (ptpphys : BitVec 64) (mem : Memory w)
    {address : BitVec 64} {ptpshift : Nat} (shift : 12 + nlevels * fmt.indexBits = ptpshift)
    (entry : entryAddress w fmt.indexBits (fmt.table ptpphys) gla ptpshift = address) :
    let visited := visit hold usermode prot gla fmt checkOnly nlevels ptpphys mem
    (hold (fmt.table ptpphys) 4096 = false ∧ visited = (.efault, mem)) ∨
    (hold (fmt.table ptpphys) 4096 ≠ false ∧
      ((permitted usermode prot (mem address) = false ∧
          visited = (.fault (pfErrorCode usermode prot false (mem address)), mem)) ∨
        (permitted usermode prot (mem address) ≠ false ∧
          ((0 < nlevels ∧ (mem address).getLsbD pgPs = true ∧ fmt.reserved ptpshift = true ∧
              visited = (.fault (pfErrorCode usermode prot true (mem address)),
                passed checkOnly address mem)) ∨
            (0 < nlevels ∧ (mem address).getLsbD pgPs = true ∧ fmt.reserved ptpshift ≠ true ∧
              visited = (.page address (mem address) ptpshift, passed checkOnly address mem)) ∨
            (¬ (0 < nlevels ∧ (mem address).getLsbD pgPs = true) ∧
              visited = (.down address (mem address) ptpshift, passed checkOnly address mem)))))) := by
  intro visited
  have unfolded : visited = visit hold usermode prot gla fmt checkOnly nlevels ptpphys mem := rfl
  simp only [visit, shift, entry, refused_eq, set_accessed] at unfolded
  by_cases held : hold (fmt.table ptpphys) 4096 = false
  · rw [if_pos held] at unfolded
    exact .inl ⟨held, unfolded⟩
  · rw [if_neg held] at unfolded
    refine .inr ⟨held, ?_⟩
    by_cases allowed : permitted usermode prot (mem address) = false
    · rw [if_pos (by rw [allowed]; rfl)] at unfolded
      exact .inl ⟨allowed, unfolded⟩
    · rw [if_neg (by rw [Bool.not_eq_true']; exact allowed)] at unfolded
      refine .inr ⟨allowed, ?_⟩
      by_cases large : 0 < nlevels ∧ (mem address).getLsbD pgPs = true
      · rw [if_pos large] at unfolded
        by_cases reserved : fmt.reserved ptpshift = true
        · rw [if_pos reserved] at unfolded
          exact .inl ⟨large.1, large.2, reserved, unfolded⟩
        · rw [if_neg reserved] at unfolded
          exact .inr (.inl ⟨large.1, large.2, reserved, unfolded⟩)
      · rw [if_neg large] at unfolded
        exact .inr (.inr ⟨large, unfolded⟩)

theorem passed_entry (checkOnly : Bool) (address other : BitVec 64) (mem : Memory w) :
    passed checkOnly address mem other = mem other ∨
      passed checkOnly address mem other = withFlag (mem other) pgA := by
  unfold passed marked
  cases checkOnly with
  | true => exact .inl rfl
  | false =>
    simp only [Bool.false_eq_true, ↓reduceIte, List.mem_singleton]
    split
    · exact .inr rfl
    · exact .inl rfl

theorem passed_alike (checkOnly : Bool) (address : BitVec 64) (mem : Memory w) :
    AlikeTables mem (passed checkOnly address mem) := by
  intro other
  obtain same | same := passed_entry checkOnly address other mem
  · rw [same]
    exact fun _ _ _ => rfl
  · rw [same]
    exact alike_with_flag _ (.inl rfl)

theorem follows_up {checkOnly : Bool} {stop : Stop w}
    (below : Follows gla fmt (passed checkOnly address mem) r stop) :
    Follows gla fmt mem { r with trail := address :: r.trail } stop := by
  cases stop with
  | efault => exact below
  | fault pfcode => exact below
  | restart => exact below
  | down other pte ptpshift => exact below
  | page other pte ptpshift =>
    obtain ⟨leaf, inside, quiet, copy, outcome⟩ := below
    refine ⟨leaf, List.mem_cons_of_mem _ inside, quiet, ?_, outcome⟩
    obtain same | same := passed_entry checkOnly address other mem
    · rw [same] at copy
      exact copy
    · rw [same, with_flag_twice] at copy
      exact .inr (copy.elim id id)

theorem walk_follows (lawful : Lawful fmt) (checkOnly : Bool) (level : Nat) :
    ∀ (ptpphys : BitVec 64) (mem : Memory w),
      Follows gla fmt mem (refWalk hold usermode prot gla fmt mem level ptpphys)
          (walk hold usermode prot gla fmt checkOnly level ptpphys mem).1 ∧
        (walk hold usermode prot gla fmt checkOnly level ptpphys mem).2 =
          if checkOnly then mem
          else marked pgA (refWalk hold usermode prot gla fmt mem level ptpphys).trail mem := by
  have unmarked : ∀ mem : Memory w, marked pgA [] mem = mem := by
    intro mem
    funext address
    exact if_neg List.not_mem_nil
  induction level with
  | zero =>
    intro ptpphys mem
    have cases_ := @visit_cases w hold usermode prot gla fmt checkOnly 0 ptpphys mem _ 12
      (by rw [Nat.zero_mul]) rfl
    simp only [refWalk]
    obtain ⟨held, visited⟩ | ⟨held, ⟨allowed, visited⟩ | ⟨allowed, ⟨never, -⟩ | ⟨never, -⟩ |
      ⟨-, visited⟩⟩⟩ := cases_
    · simp only [walk, visited, if_pos held, unmarked, ite_self]
      exact ⟨⟨rfl, rfl, rfl⟩, trivial⟩
    · simp only [walk, visited, if_neg held, if_pos allowed, failed, unmarked, ite_self]
      exact ⟨⟨rfl, rfl, rfl⟩, trivial⟩
    · exact absurd never (Nat.lt_irrefl 0)
    · exact absurd never (Nat.lt_irrefl 0)
    · simp only [walk, visited, if_neg held, if_neg allowed, translated]
      exact ⟨⟨rfl, List.mem_singleton.mpr rfl, rfl, .inl rfl, rfl⟩, rfl⟩
  | succ level ih =>
    intro ptpphys mem
    have cases_ := @visit_cases w hold usermode prot gla fmt checkOnly (level + 1) ptpphys mem _ _
      rfl rfl
    simp only [refWalk]
    obtain ⟨held, visited⟩ | ⟨held, ⟨allowed, visited⟩ | ⟨allowed, ⟨-, large, reserved, visited⟩ |
      ⟨-, large, reserved, visited⟩ | ⟨small, visited⟩⟩⟩ := cases_
    · simp only [walk, visited, if_pos held, unmarked, ite_self]
      exact ⟨⟨rfl, rfl, rfl⟩, trivial⟩
    · simp only [walk, visited, if_neg held, if_pos allowed, failed, unmarked, ite_self]
      exact ⟨⟨rfl, rfl, rfl⟩, trivial⟩
    · simp only [walk, visited, if_neg held, if_neg allowed, if_pos large, if_pos reserved, failed]
      exact ⟨⟨rfl, rfl, rfl⟩, rfl⟩
    · simp only [walk, visited, if_neg held, if_neg allowed, if_pos large, if_neg reserved,
        translated]
      exact ⟨⟨rfl, List.mem_singleton.mpr rfl, rfl, .inl rfl, rfl⟩, rfl⟩
    · have plain : ¬ (mem (entryAddress w fmt.indexBits (fmt.table ptpphys) gla
          (12 + (level + 1) * fmt.indexBits))).getLsbD pgPs = true :=
        fun large => small ⟨Nat.succ_pos level, large⟩
      simp only [walk, visited, if_neg held, if_neg allowed, if_neg plain]
      generalize entryAddress w fmt.indexBits (fmt.table ptpphys) gla
        (12 + (level + 1) * fmt.indexBits) = address at *
      obtain ⟨below, left⟩ := ih ((mem address).setWidth 64) (passed checkOnly address mem)
      have same := @ref_walk_congr w hold usermode prot gla fmt lawful _ _
        (passed_alike checkOnly address mem) level ((mem address).setWidth 64)
        ((mem address).setWidth 64) rfl
      rw [← same] at below left
      refine ⟨follows_up below, ?_⟩
      rw [left]
      cases checkOnly with
      | true => rfl
      | false => exact marked_cons pgA address _ mem

theorem touched_read (r : Reference) (mem : Memory w) :
    touched false r mem = marked pgA r.trail mem := by
  funext address
  exact if_neg fun both => absurd both.1 Bool.false_ne_true

theorem touched_write (leaf : r.leaf = some address) (mem : Memory w) :
    touched true r mem = marked pgM [address] (marked pgA r.trail mem) := by
  funext other
  unfold touched
  generalize marked pgA r.trail mem = accessed
  rw [leaf, marked]
  by_cases same : other = address
  · rw [if_pos ⟨rfl, by rw [same]⟩, if_pos (List.mem_singleton.mpr same)]
  · rw [if_neg fun both => same (Option.some.inj both.2).symm,
      if_neg fun inside => same (List.mem_singleton.mp inside)]

theorem touched_unwritten (write : Bool) (leaf : r.leaf = none) (mem : Memory w) :
    touched write r mem = marked pgA r.trail mem := by
  funext address
  unfold touched
  rw [leaf]
  exact if_neg fun both => absurd both.2 (by simp)

theorem set_dirty {r : Reference} {mem : Memory w} {address : BitVec 64} {pte : BitVec w}
    (leaf : r.leaf = some address) (inside : address ∈ r.trail)
    (copy : pte = mem address ∨ pte = withFlag (mem address) pgA) :
    setFlag prot.write pgM (marked pgA r.trail mem) address pte =
        some (touched prot.write r mem) ∨
      (setFlag prot.write pgM (marked pgA r.trail mem) address pte = none ∧
        ∃ a ∈ r.trail, (mem a).getLsbD pgA = false) := by
  cases write : prot.write with
  | false => exact .inl (by rw [set_flag_unwanted, touched_read])
  | true =>
    have now : marked pgA r.trail mem address = withFlag (mem address) pgA := if_pos inside
    by_cases current : pte = marked pgA r.trail mem address
    · rw [current, set_flag_fresh, touched_write leaf]
      exact .inl rfl
    · have stale : pte = mem address := copy.resolve_right fun same => current (same.trans now.symm)
      have clear : (mem address).getLsbD pgA = false := by
        cases held : (mem address).getLsbD pgA with
        | false => rfl
        | true => exact absurd (by rw [now, with_flag_set held, stale]) current
      cases dirty : pte.getLsbD pgM with
      | true =>
        have held : (marked pgA r.trail mem address).getLsbD pgM = true := by
          rw [now, with_flag_bit, ← stale, dirty, Bool.true_or]
        rw [touched_write leaf, marked_held held]
        simp only [setFlag, dirty, Bool.not_true, Bool.and_false, Bool.false_eq_true, ↓reduceIte]
        exact .inl trivial
      | false =>
        refine .inr ⟨?_, address, inside, clear⟩
        simp only [setFlag, dirty, Bool.not_false, Bool.and_true, ↓reduceIte, atomicCmpset]
        exact if_neg fun same => current same.symm

theorem table_walk_checks (lawful : Lawful fmt) (level : Nat) (root : BitVec 64) (mem : Memory w) :
    tableWalk hold usermode prot gla fmt true level root mem =
      (some ⟨(refWalk hold usermode prot gla fmt mem level root).outcome, none⟩, mem) := by
  obtain ⟨follows, left⟩ :=
    @walk_follows w hold usermode prot gla fmt lawful true level root mem
  unfold tableWalk
  generalize walk hold usermode prot gla fmt true level root mem = stopped at follows left ⊢
  obtain ⟨stop, after⟩ := stopped
  obtain rfl : after = mem := left
  cases stop with
  | efault => rw [follows.1]; rfl
  | fault pfcode => rw [follows.1]; rfl
  | restart => exact follows.elim
  | down address pte ptpshift => exact follows.elim
  | page address pte ptpshift =>
    rw [follows.2.2.2.2]
    rfl

theorem table_walk_marks (lawful : Lawful fmt) (level : Nat) (root : BitVec 64) (mem : Memory w) :
    let r := refWalk hold usermode prot gla fmt mem level root
    tableWalk hold usermode prot gla fmt false level root mem =
        (some ⟨r.outcome, r.exception⟩, touched prot.write r mem) ∨
      (tableWalk hold usermode prot gla fmt false level root mem = (none, marked pgA r.trail mem) ∧
        ∃ a ∈ r.trail, (mem a).getLsbD pgA = false) := by
  intro r
  obtain ⟨follows, left⟩ :=
    @walk_follows w hold usermode prot gla fmt lawful false level root mem
  unfold tableWalk
  generalize walk hold usermode prot gla fmt false level root mem = stopped at follows left ⊢
  obtain ⟨stop, after⟩ := stopped
  obtain rfl : after = marked pgA r.trail mem := left
  cases stop with
  | efault =>
    obtain ⟨outcome, exception, leaf⟩ := follows
    rw [touched_unwritten _ leaf, outcome, exception]
    exact .inl rfl
  | fault pfcode =>
    obtain ⟨outcome, exception, leaf⟩ := follows
    rw [touched_unwritten _ leaf, outcome, exception]
    exact .inl rfl
  | restart => exact follows.elim
  | down address pte ptpshift => exact follows.elim
  | page address pte ptpshift =>
    obtain ⟨leaf, inside, quiet, copy, outcome⟩ := follows
    obtain set_ | ⟨unset, clear⟩ := @set_dirty w prot r mem address pte leaf inside copy
    · refine .inl ?_
      simp only [finish, Bool.not_false, Bool.true_and, set_]
      rw [outcome, quiet]
    · refine .inr ⟨?_, clear⟩
      simp only [finish, Bool.not_false, Bool.true_and, unset]

def Marks (prot : Prot) (mem : Memory w) (r : Reference) (turn : Option Reply × Memory w) : Prop :=
  turn = (some ⟨r.outcome, r.exception⟩, touched prot.write r mem) ∨
    (turn = (none, marked pgA r.trail mem) ∧ ∃ a ∈ r.trail, (mem a).getLsbD pgA = false)

theorem marks_nothing (trail : r.trail = []) (leaf : r.leaf = none) :
    Marks prot mem r (some ⟨r.outcome, r.exception⟩, mem) := by
  refine .inl ?_
  rw [touched_unwritten _ leaf, trail]
  congr 1

theorem pae_walk_checks (cr3 : BitVec 64) (mem : Memory 64) :
    paeWalk hold usermode prot gla true cr3 mem =
      (some ⟨(refPae hold usermode prot gla cr3 mem).outcome, none⟩, mem) := by
  simp only [paeWalk, refPae, Bool.not_eq_true']
  by_cases held : hold (cr3 &&& 0xffffffe0) 32 = false
  · rw [if_pos held, if_pos held]
  · rw [if_neg held, if_neg held]
    by_cases absent : (mem (paeAddress gla cr3)).getLsbD pgV = false
    · rw [if_pos absent, if_pos absent]
      rfl
    · rw [if_neg absent, if_neg absent]
      exact table_walk_checks format64_lawful 1 _ mem

theorem pae_walk_marks (cr3 : BitVec 64) (mem : Memory 64) :
    Marks prot mem (refPae hold usermode prot gla cr3 mem)
      (paeWalk hold usermode prot gla false cr3 mem) := by
  simp only [paeWalk, refPae, Bool.not_eq_true']
  by_cases held : hold (cr3 &&& 0xffffffe0) 32 = false
  · rw [if_pos held, if_pos held]
    exact marks_nothing rfl rfl
  · rw [if_neg held, if_neg held]
    by_cases absent : (mem (paeAddress gla cr3)).getLsbD pgV = false
    · rw [if_pos absent, if_pos absent]
      exact marks_nothing rfl rfl
    · rw [if_neg absent, if_neg absent]
      exact table_walk_marks format64_lawful 1 _ mem

theorem mode_walk_checks (cr3 : BitVec 64) (mode : PagingMode) (mem : Memory (entryBits mode)) :
    modeWalk hold usermode prot gla true cr3 mode mem =
      (some ⟨(refMode hold usermode prot gla cr3 mode mem).outcome, none⟩, mem) := by
  cases mode with
  | flat => rfl
  | bits32 => exact table_walk_checks format32_lawful 1 cr3 mem
  | pae => exact pae_walk_checks cr3 mem
  | bits64 => exact table_walk_checks format64_lawful 3 cr3 mem

theorem mode_walk_marks (cr3 : BitVec 64) (mode : PagingMode) (mem : Memory (entryBits mode)) :
    Marks prot mem (refMode hold usermode prot gla cr3 mode mem)
      (modeWalk hold usermode prot gla false cr3 mode mem) := by
  cases mode with
  | flat => exact marks_nothing rfl rfl
  | bits32 => exact table_walk_marks format32_lawful 1 cr3 mem
  | pae => exact pae_walk_marks cr3 mem
  | bits64 => exact table_walk_marks format64_lawful 3 cr3 mem

theorem ref_pae_congr {cr3 : BitVec 64} {mem mem' : Memory 64} (alike : AlikeTables mem mem') :
    refPae hold usermode prot gla cr3 mem = refPae hold usermode prot gla cr3 mem' := by
  have entry := alike (paeAddress gla cr3)
  have table := format64_lawful.table entry
  rw [setWidth_eq, setWidth_eq] at table
  rw [refPae, refPae, (@alike_flags 64 usermode prot _ _ entry).2.1, alike_failed entry,
    ref_walk_congr format64_lawful alike 1 table]

theorem ref_mode_congr {cr3 : BitVec 64} (mode : PagingMode) {mem mem' : Memory (entryBits mode)}
    (alike : AlikeTables mem mem') :
    refMode hold usermode prot gla cr3 mode mem = refMode hold usermode prot gla cr3 mode mem' := by
  cases mode with
  | flat => rfl
  | bits32 => exact ref_walk_congr format32_lawful alike 1 rfl
  | pae => exact ref_pae_congr alike
  | bits64 => exact ref_walk_congr format64_lawful alike 3 rfl

end

section
variable {hold : BitVec 64 → Nat → Bool} {paging : GuestPaging} {gla : BitVec 64} {prot : Prot}

theorem attempt_checks (mem : Memory (entryBits paging.pagingMode)) :
    attempt hold paging gla prot true mem =
      (some ⟨(reference hold paging gla prot mem).outcome, none⟩, mem) := by
  unfold attempt reference
  split
  · rfl
  · exact mode_walk_checks paging.cr3 paging.pagingMode mem

theorem attempt_marks (mem : Memory (entryBits paging.pagingMode)) :
    Marks prot mem (reference hold paging gla prot mem)
      (attempt hold paging gla prot false mem) := by
  unfold attempt reference
  split
  · exact marks_nothing rfl rfl
  · exact mode_walk_marks paging.cr3 paging.pagingMode mem

theorem reference_congr {mem mem' : Memory (entryBits paging.pagingMode)}
    (alike : AlikeTables mem mem') :
    reference hold paging gla prot mem = reference hold paging gla prot mem' := by
  unfold reference
  rw [ref_mode_congr paging.pagingMode alike]

theorem accessed_inside (mode : PagingMode) : pgA < entryBits mode := by
  cases mode <;> decide

theorem second_turn (mem : Memory (entryBits paging.pagingMode)) :
    let r := reference hold paging gla prot mem
    attempt hold paging gla prot false (marked pgA r.trail mem) =
      (some ⟨r.outcome, r.exception⟩, touched prot.write r mem) := by
  intro r
  have same : reference hold paging gla prot (marked pgA r.trail mem) = r :=
    (reference_congr (marked_alike r.trail mem)).symm
  have marks := @attempt_marks hold paging gla prot (marked pgA r.trail mem)
  rw [same] at marks
  obtain replied | ⟨-, a, inside, clear⟩ := marks
  · rw [replied]
    congr 1
    funext address
    simp only [touched, marked_twice]
  · rw [marked, if_pos inside, with_flag_bit, decide_eq_true (accessed_inside paging.pagingMode),
      decide_eq_true rfl, Bool.and_true, Bool.or_true] at clear
    exact absurd clear.symm Bool.false_ne_true

theorem page_walk_follows (hold : BitVec 64 → Nat → Bool) (paging : GuestPaging) (gla : BitVec 64)
    (prot : Prot) (mem : Memory (entryBits paging.pagingMode)) (turns : Nat) :
    let r := reference hold paging gla prot mem
    (∃ restarts ≤ 1, vmGla2gpa hold paging gla prot false (turns + 2) mem =
        some ⟨⟨r.outcome, r.exception⟩, touched prot.write r mem, restarts⟩) ∧
      vmGla2gpa hold paging gla prot true (turns + 1) mem = some ⟨⟨r.outcome, none⟩, mem, 0⟩ := by
  intro r
  constructor
  · obtain replied | ⟨again, -⟩ := @attempt_marks hold paging gla prot mem
    · refine ⟨0, Nat.zero_le 1, ?_⟩
      rw [vmGla2gpa, replied]
    · refine ⟨1, Nat.le_refl 1, ?_⟩
      rw [vmGla2gpa, again]
      simp only [vmGla2gpa, second_turn, Option.map_some]
      rfl
  · rw [vmGla2gpa, attempt_checks]

end

end VmmPageWalk
