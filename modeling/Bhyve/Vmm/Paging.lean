import Bhyve.Vmm.Translation

/-!
Translation as the tables define it, in arithmetic: a table lies at the page an entry names, and
the address selects an entry by the digits of its own level.
-/
namespace VmmPaging
open VmmDecoder VmmPageWalk BitVec Nat

/-- Entries of w bits: how many bits of an address one level takes, where physical addresses
    end, and the largest page that an entry above the page tables may describe. -/
structure Layout (w : Nat) where
  indexBits : Nat
  addressBits : Nat
  largest : Nat

def layout32 : Layout 32 := ⟨10, 64, 64⟩
def layout64 : Layout 64 := ⟨9, 52, 30⟩

section
variable {w : Nat} (hold : BitVec 64 → Nat → Bool) (usermode : Bool) (prot : Prot)
  (gla : BitVec 64) (layout : Layout w)

def pageShift (level : Nat) : Nat := 12 + level * layout.indexBits

def namedPage (shift value : Nat) : Nat :=
  value % 2 ^ layout.addressBits / 2 ^ shift * 2 ^ shift

def tableAt (ptpphys : BitVec 64) : BitVec 64 :=
  BitVec.ofNat 64 (namedPage layout 12 ptpphys.toNat)

def entryAt (level : Nat) (ptpphys : BitVec 64) : BitVec 64 :=
  BitVec.ofNat 64 (namedPage layout 12 ptpphys.toNat +
    w / 8 * (gla.toNat / 2 ^ pageShift layout level % 2 ^ layout.indexBits))

def addressIn (level : Nat) (pte : BitVec w) : BitVec 64 :=
  BitVec.ofNat 64 (namedPage layout (pageShift layout level) pte.toNat +
    gla.toNat % 2 ^ pageShift layout level)

def lookup (mem : Memory w) : Nat → BitVec 64 → Reference
  | 0, ptpphys =>
      let address := entryAt gla layout 0 ptpphys
      if hold (tableAt layout ptpphys) 4096 = false then ⟨.efault, none, [], none⟩
      else if permitted usermode prot (mem address) = false then
        failed usermode prot gla false (mem address) []
      else ⟨.gpa (addressIn gla layout 0 (mem address)), none, [address], some address⟩
  | level + 1, ptpphys =>
      let address := entryAt gla layout (level + 1) ptpphys
      if hold (tableAt layout ptpphys) 4096 = false then ⟨.efault, none, [], none⟩
      else if permitted usermode prot (mem address) = false then
        failed usermode prot gla false (mem address) []
      else if (mem address).getLsbD pgPs then
        if layout.largest < pageShift layout (level + 1) then
          failed usermode prot gla true (mem address) [address]
        else ⟨.gpa (addressIn gla layout (level + 1) (mem address)), none, [address], some address⟩
      else
        let below := lookup mem level ((mem address).setWidth 64)
        { below with trail := address :: below.trail }

/-- The four page directory pointers of PAE are no tables: they have a valid flag and no
    permission, accessed or dirty flag, and are not on the trail. -/
def lookupPae (cr3 : BitVec 64) (mem : Memory 64) : Reference :=
  let base := cr3.toNat % 2 ^ 32 / 32 * 32
  let pte := mem (BitVec.ofNat 64 (base + 8 * (gla.toNat / 2 ^ 30 % 4)))
  if hold (BitVec.ofNat 64 base) 32 = false then ⟨.efault, none, [], none⟩
  else if pte.getLsbD pgV = false then failed usermode prot gla false pte []
  else lookup hold usermode prot gla layout64 mem 1 pte

def lookupMode (cr3 : BitVec 64) : (mode : PagingMode) → Memory (entryBits mode) → Reference
  | .flat, _ => ⟨.gpa gla, none, [], none⟩
  | .bits32, mem => lookup hold usermode prot gla layout32 mem 1 cr3
  | .pae, mem => lookupPae hold usermode prot gla cr3 mem
  | .bits64, mem => lookup hold usermode prot gla layout64 mem 3 cr3

end

/-- Addresses of 64-bit mode are the sign extension of their low 48 bits. -/
def canonical (gla : BitVec 64) : Bool := decide ((gla.setWidth 48).signExtend 64 = gla)

def translation (hold : BitVec 64 → Nat → Bool) (paging : GuestPaging) (gla : BitVec 64)
    (prot : Prot) (mem : Memory (entryBits paging.pagingMode)) : Reference :=
  if paging.cpuMode = .bits64 ∧ canonical gla = false then ⟨.guestFault, some .gp, [], none⟩
  else lookupMode hold (decide (paging.cpl = 3)) prot gla paging.cr3 paging.pagingMode mem

structure Keeps {w : Nat} (fmt : Format w) (layout : Layout w) : Prop where
  index : fmt.indexBits = layout.indexBits
  narrow : layout.indexBits < 64
  table : ∀ ptpphys, fmt.table ptpphys = tableAt layout ptpphys
  frame : ∀ shift pte, shift ≤ 52 →
    fmt.frame shift pte = BitVec.ofNat 64 (namedPage layout shift pte.toNat)
  reserved : ∀ shift, shift ≤ 52 → fmt.reserved shift = decide (layout.largest < shift)

theorem mask_to_nat (x : BitVec 64) {n : Nat} (narrow : n < 64) :
    (x &&& BitVec.ofNat 64 (2 ^ n - 1)).toNat = x.toNat % 2 ^ n := by
  have below : 2 ^ n - 1 < 2 ^ 64 :=
    Nat.lt_of_le_of_lt (sub_le ..) (Nat.pow_lt_pow_right Nat.one_lt_two narrow)
  rw [toNat_and, toNat_ofNat, mod_eq_of_lt below, and_two_pow_sub_one_eq_mod]

theorem entry_address_eq (bits : Nat) (table gla : BitVec 64) (shift : Nat) {n : Nat}
    (narrow : n < 64) : entryAddress bits n table gla shift =
      BitVec.ofNat 64 (table.toNat + bits / 8 * (gla.toNat / 2 ^ shift % 2 ^ n)) := by
  refine eq_of_toNat_eq ?_
  rw [entryAddress, toNat_add, toNat_mul, mask_to_nat _ narrow,
    toNat_ushiftRight, shiftRight_eq_div_pow, toNat_ofNat, toNat_ofNat,
    mod_mul_mod, add_mod_mod]

theorem named_page_eq {shift limit : Nat} (within : shift ≤ limit) (value : Nat) :
    value / 2 ^ shift % 2 ^ (limit - shift) * 2 ^ shift =
      value % 2 ^ limit / 2 ^ shift * 2 ^ shift := by
  have split_ : 2 ^ limit = 2 ^ shift * 2 ^ (limit - shift) := by
    rw [← Nat.pow_add, Nat.add_sub_cancel' within]
  rw [split_, mod_mul_right_div_self]

theorem shifted_frame (x : BitVec 64) {shift : Nat} (within : shift ≤ 52) :
    ((x >>> shift) <<< (shift + 12)) >>> 12 =
      BitVec.ofNat 64 (x.toNat % 2 ^ 52 / 2 ^ shift * 2 ^ shift) := by
  refine eq_of_toNat_eq ?_
  have whole : 2 ^ 64 = 2 ^ (52 - shift) * 2 ^ (shift + 12) := by
    rw [← Nat.pow_add]
    congr 1
    omega
  have below : x.toNat % 2 ^ 52 / 2 ^ shift * 2 ^ shift < 2 ^ 64 :=
    Nat.lt_of_le_of_lt (Nat.le_trans (div_mul_le_self ..)
      (Nat.le_of_lt (mod_lt _ (Nat.two_pow_pos 52)))) (by decide)
  rw [toNat_ofNat, mod_eq_of_lt below, toNat_ushiftRight, toNat_shiftLeft,
    toNat_ushiftRight, shiftRight_eq_div_pow, Nat.shiftLeft_eq,
    shiftRight_eq_div_pow, whole, mul_mod_mul_right, Nat.pow_add, ← Nat.mul_assoc,
    Nat.mul_div_cancel _ (Nat.two_pow_pos 12), named_page_eq within]

theorem shifted_twice {w : Nat} (x : BitVec w) (shift : Nat) :
    ((x >>> shift) <<< shift).toNat = x.toNat / 2 ^ shift * 2 ^ shift := by
  have below : x.toNat / 2 ^ shift * 2 ^ shift < 2 ^ w :=
    Nat.lt_of_le_of_lt (div_mul_le_self ..) x.isLt
  rw [toNat_shiftLeft, toNat_ushiftRight, shiftRight_eq_div_pow,
    Nat.shiftLeft_eq, mod_eq_of_lt below]

theorem low_bits_cleared (x : BitVec 64) : x &&& ~~~(0xfff : BitVec 64) = (x >>> 12) <<< 12 := by
  refine eq_of_getLsbD_eq fun i bound => ?_
  have low : (~~~(0xfff : BitVec 64)).getLsbD i = decide (12 ≤ i) := by
    revert i
    decide
  rw [getLsbD_and, low, getLsbD_shiftLeft, getLsbD_ushiftRight]
  by_cases high : 12 ≤ i
  · rw [decide_eq_true high, decide_eq_true bound, decide_eq_false (Nat.not_lt.mpr high),
      Nat.add_sub_cancel' high, Bool.and_true, Bool.not_false, Bool.true_and, Bool.true_and]
  · rw [decide_eq_false high, decide_eq_true (Nat.not_le.mp high), Bool.and_false, Bool.not_true,
      Bool.and_false, Bool.false_and]

theorem format32_keeps : Keeps format32 layout32 := by
  refine ⟨rfl, by decide, fun ptpphys => ?_, fun shift pte _ => ?_, fun shift within => ?_⟩
  · refine eq_of_toNat_eq ?_
    have named : namedPage layout32 12 ptpphys.toNat = ptpphys.toNat / 2 ^ 12 * 2 ^ 12 := by
      rw [namedPage, layout32, mod_eq_of_lt ptpphys.isLt]
    have below : ptpphys.toNat / 2 ^ 12 * 2 ^ 12 < 2 ^ 64 :=
      Nat.lt_of_le_of_lt (div_mul_le_self ..) ptpphys.isLt
    rw [tableAt, named, toNat_ofNat, mod_eq_of_lt below, ← shifted_twice,
      ← low_bits_cleared, format32]
  · refine eq_of_toNat_eq ?_
    have wide : pte.toNat < 2 ^ 64 := Nat.lt_trans pte.isLt (by decide)
    rw [namedPage, layout32, mod_eq_of_lt wide, toNat_ofNat, format32,
      toNat_setWidth, shifted_twice]
  · exact (decide_eq_false (Nat.not_lt.mpr (Nat.le_trans within (by decide)))).symm

theorem format64_keeps : Keeps format64 layout64 := by
  refine ⟨rfl, by decide, fun ptpphys => ?_, fun shift pte within => ?_, fun shift _ => rfl⟩
  · exact shifted_frame ptpphys (by decide)
  · exact shifted_frame pte within

section
variable {w : Nat} {hold : BitVec 64 → Nat → Bool} {usermode : Bool} {prot : Prot}
  {gla : BitVec 64} {fmt : Format w} {layout : Layout w}

theorem entry_at_eq (keeps : Keeps fmt layout) (level : Nat) (ptpphys : BitVec 64) :
    entryAddress w fmt.indexBits (fmt.table ptpphys) gla (12 + level * fmt.indexBits) =
      entryAt gla layout level ptpphys := by
  rw [keeps.index, keeps.table, entry_address_eq _ _ _ _ keeps.narrow, tableAt]
  refine eq_of_toNat_eq ?_
  rw [toNat_ofNat, toNat_ofNat, mod_add_mod, ← toNat_ofNat, entryAt,
    pageShift]

theorem page_address_eq (keeps : Keeps fmt layout) {level : Nat} (pte : BitVec w)
    (within : pageShift layout level ≤ 52) :
    pageAddress gla (fmt.frame (pageShift layout level) pte) (pageShift layout level) =
      addressIn gla layout level pte := by
  rw [keeps.frame _ _ within, pageAddress, addressIn, namedPage]
  generalize pageShift layout level = shift at *
  generalize pte.toNat % 2 ^ layout.addressBits / 2 ^ shift = number
  refine eq_of_toNat_eq ?_
  have rest : gla.toNat % 2 ^ shift < 2 ^ shift := mod_lt _ (Nat.two_pow_pos shift)
  rw [toNat_or, mask_to_nat _ (Nat.lt_of_le_of_lt within (by decide)), toNat_ofNat,
    toNat_ofNat, Nat.mul_comm]
  have whole : 2 ^ 64 = 2 ^ shift * 2 ^ (64 - shift) := by
    rw [← Nat.pow_add, Nat.add_sub_cancel' (Nat.le_trans within (by decide))]
  have kept : 2 ^ shift * number % 2 ^ 64 = 2 ^ shift * (number % 2 ^ (64 - shift)) := by
    rw [whole, mul_mod_mul_left]
  have inside : number % 2 ^ (64 - shift) + 1 ≤ 2 ^ (64 - shift) :=
    mod_lt _ (Nat.two_pow_pos (64 - shift))
  have below : 2 ^ shift * (number % 2 ^ (64 - shift)) + gla.toNat % 2 ^ shift < 2 ^ 64 := by
    rw [whole]
    refine Nat.lt_of_lt_of_le (Nat.add_lt_add_left rest _) ?_
    exact Nat.mul_le_mul_left _ inside
  rw [← mod_add_mod, kept, mod_eq_of_lt below, two_pow_add_eq_or_of_lt rest]

theorem ref_walk_eq (keeps : Keeps fmt layout) (mem : Memory w) (level : Nat) :
    ∀ ptpphys : BitVec 64, pageShift layout level ≤ 52 →
      refWalk hold usermode prot gla fmt mem level ptpphys =
        lookup hold usermode prot gla layout mem level ptpphys := by
  induction level with
  | zero =>
    intro ptpphys within
    have entry := @entry_at_eq w gla fmt layout keeps 0 ptpphys
    rw [Nat.zero_mul, keeps.table] at entry
    have page := fun pte => @page_address_eq w gla fmt layout keeps 0 pte within
    have shift : pageShift layout 0 = 12 := by rw [pageShift, Nat.zero_mul]
    rw [shift] at page
    simp only [refWalk, lookup, translated, entry, page, keeps.table]
  | succ level ih =>
    intro ptpphys within
    have entry := @entry_at_eq w gla fmt layout keeps (level + 1) ptpphys
    have page := fun pte => @page_address_eq w gla fmt layout keeps (level + 1) pte within
    have lower : pageShift layout level ≤ 52 := by
      refine Nat.le_trans ?_ within
      exact Nat.add_le_add_left (Nat.mul_le_mul_right _ (le_succ level)) 12
    have shift : 12 + (level + 1) * fmt.indexBits = pageShift layout (level + 1) := by
      rw [pageShift, keeps.index]
    rw [shift, keeps.table] at entry
    simp only [refWalk, lookup, translated, shift, entry, page, keeps.table,
      keeps.reserved _ within, decide_eq_true_eq, ih _ lower]

theorem pae_base_eq (cr3 : BitVec 64) :
    cr3 &&& 0xffffffe0 = BitVec.ofNat 64 (cr3.toNat % 2 ^ 32 / 32 * 32) := by
  have cleared : cr3 &&& (0xffffffe0 : BitVec 64) = (((cr3.setWidth 32) >>> 5) <<< 5).setWidth 64 := by
    refine eq_of_getLsbD_eq fun i bound => ?_
    have mask : (0xffffffe0 : BitVec 64).getLsbD i = (decide (i < 32) && decide (5 ≤ i)) := by
      revert i
      decide
    rw [getLsbD_and, mask, getLsbD_setWidth, getLsbD_shiftLeft,
      getLsbD_ushiftRight, getLsbD_setWidth, decide_eq_true bound, Bool.true_and]
    by_cases low : i < 5
    · rw [decide_eq_true low, decide_eq_false (Nat.not_le.mpr low), Bool.and_false, Bool.and_false,
        Bool.not_true, Bool.and_false, Bool.false_and]
    · have high : 5 ≤ i := Nat.not_lt.mp low
      rw [decide_eq_false low, decide_eq_true high, Nat.add_sub_cancel' high]
      cases cr3.getLsbD i <;> cases decide (i < 32) <;> rfl
  refine eq_of_toNat_eq ?_
  rw [cleared, toNat_setWidth, shifted_twice, toNat_setWidth, toNat_ofNat]
  rfl

theorem ref_pae_eq (cr3 : BitVec 64) (mem : Memory 64) :
    refPae hold usermode prot gla cr3 mem = lookupPae hold usermode prot gla cr3 mem := by
  have pointer : paeAddress gla cr3 =
      BitVec.ofNat 64 (cr3.toNat % 2 ^ 32 / 32 * 32 + 8 * (gla.toNat / 2 ^ 30 % 4)) := by
    have entry := entry_address_eq 64 (cr3 &&& 0xffffffe0) gla 30 (n := 2) (by decide)
    refine Eq.trans entry (eq_of_toNat_eq ?_)
    rw [pae_base_eq, toNat_ofNat, toNat_ofNat, toNat_ofNat, mod_add_mod]
    rfl
  simp only [refPae, lookupPae, pointer, pae_base_eq,
    fun root => @ref_walk_eq 64 hold usermode prot gla _ _ format64_keeps mem 1 root (by decide)]

theorem ref_mode_eq (cr3 : BitVec 64) (mode : PagingMode) (mem : Memory (entryBits mode)) :
    refMode hold usermode prot gla cr3 mode mem =
      lookupMode hold usermode prot gla cr3 mode mem := by
  cases mode with
  | flat => rfl
  | bits32 => exact ref_walk_eq format32_keeps mem 1 cr3 (by decide)
  | pae => exact ref_pae_eq cr3 mem
  | bits64 => exact ref_walk_eq format64_keeps mem 3 cr3 (by decide)

end

theorem high_bits_eq (gla : BitVec 64) (b : Bool) :
    (gla &&& 0xffff000000000000 = if b then 0xffff000000000000 else 0) ↔
      ∀ i, 48 ≤ i → i < 64 → gla.getLsbD i = b := by
  have mask : ∀ i < 64, (0xffff000000000000 : BitVec 64).getLsbD i = decide (48 ≤ i) := by
    decide
  have zero : ∀ i, (0 : BitVec 64).getLsbD i = false := fun i => getLsbD_zero
  constructor
  · intro same i high bound
    have bit := congrArg (fun x => x.getLsbD i) same
    cases b <;> simpa only [getLsbD_and, mask i bound, decide_eq_true high, Bool.and_true,
      ↓reduceIte, Bool.false_eq_true, zero] using bit
  · intro all
    refine eq_of_getLsbD_eq fun i bound => ?_
    by_cases high : 48 ≤ i
    · cases b <;> simp only [getLsbD_and, mask i bound, decide_eq_true high, Bool.and_true,
        ↓reduceIte, Bool.false_eq_true, zero, all i high bound]
    · cases b <;> simp only [getLsbD_and, mask i bound, decide_eq_false high, Bool.and_false,
        ↓reduceIte, Bool.false_eq_true, zero]

theorem canonical_iff (gla : BitVec 64) :
    canonical gla = true ↔ ∀ i, 48 ≤ i → i < 64 → gla.getLsbD i = gla.getLsbD 47 := by
  have sign : (gla.setWidth 48).msb = gla.getLsbD 47 := by
    rw [msb_eq_getLsbD_last, getLsbD_setWidth]
    rfl
  rw [canonical, decide_eq_true_eq]
  constructor
  · intro same i high bound
    rw [← sign, ← same, getLsbD_signExtend, decide_eq_true bound,
      if_neg (Nat.not_lt.mpr high), Bool.true_and, same]
  · intro all
    refine eq_of_getLsbD_eq fun i bound => ?_
    rw [getLsbD_signExtend, decide_eq_true bound, Bool.true_and]
    by_cases low : i < 48
    · rw [if_pos low, getLsbD_setWidth, decide_eq_true low, Bool.true_and]
    · rw [if_neg low, sign, all i (Nat.not_lt.mp low) bound]

theorem canonical_check_eq (cpuMode : CpuMode) (gla : BitVec 64) :
    vieCanonicalCheck cpuMode gla = decide (cpuMode = .bits64 ∧ canonical gla = false) := by
  unfold vieCanonicalCheck
  by_cases long : cpuMode = .bits64
  · have checked : canonical gla = false ↔
        ¬ (gla &&& 0xffff000000000000 = if gla.getLsbD 47 then 0xffff000000000000 else 0) := by
      rw [← Bool.not_eq_true, canonical_iff, high_bits_eq]
    simp only [long, checked, true_and, ne_eq, not_true_eq_false, ↓reduceIte]
    cases gla.getLsbD 47 <;> rfl
  · simp only [long, false_and, ne_eq, not_false_eq_true, ↓reduceIte, decide_false]

section
variable (hold : BitVec 64 → Nat → Bool) (paging : GuestPaging) (gla : BitVec 64) (prot : Prot)
  (mem : Memory (entryBits paging.pagingMode))
include hold paging gla prot mem

theorem reference_eq :
    reference hold paging gla prot mem = translation hold paging gla prot mem := by
  simp only [reference, translation, canonical_check_eq, decide_eq_true_eq, ref_mode_eq,
    usermodeOf]

end

theorem page_walk_refines (hold : BitVec 64 → Nat → Bool) (paging : GuestPaging) (gla : BitVec 64)
    (prot : Prot) (mem : Memory (entryBits paging.pagingMode)) (turns : Nat) :
    let r := translation hold paging gla prot mem
    (∃ restarts ≤ 1, vmGla2gpa hold paging gla prot false (turns + 2) mem =
        some ⟨⟨r.outcome, r.exception⟩, touched prot.write r mem, restarts⟩) ∧
      vmGla2gpa hold paging gla prot true (turns + 1) mem = some ⟨⟨r.outcome, none⟩, mem, 0⟩ := by
  rw [← reference_eq]
  exact page_walk_follows hold paging gla prot mem turns

def paeTables : Memory 64 := fun address =>
  if address = 0 then 0x1001 else if address = 0x1000 then 0x83 else 0

def paeGuest : GuestPaging where
  cr3 := 0
  cpl := 0
  cpuMode := .protectedMode
  pagingMode := .pae

theorem directory_pointer_not_accessed :
    (paeTables (paeAddress 5 paeGuest.cr3)).getLsbD pgV = true ∧
      (vmGla2gpa (fun _ _ => true) paeGuest 5 ⟨true, false, false⟩ false 2 paeTables).map
          (fun done => (done.reply.outcome, (done.mem 0x1000).getLsbD pgA,
            (done.mem (paeAddress 5 paeGuest.cr3)).getLsbD pgA)) =
        some (.gpa 5, true, false) := by
  decide

end VmmPaging
