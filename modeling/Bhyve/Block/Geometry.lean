import Bhyve.Block.Backend

namespace BlockIf

structure WideChs where
  c : Nat
  h : Nat
  s : Nat

def wideCalc (hcyl heads secpt : Nat) : WideChs := ⟨hcyl / heads, heads, secpt⟩

def wideSearch (sectors : Nat) : WideChs :=
  let hcyl := sectors / 17
  let heads := max 4 ((hcyl + 1023) / 1024)
  let retry := decide (heads * 1024 ≤ hcyl) || decide (16 < heads)
  let secpt := if retry then 31 else 17
  let heads := if retry then 16 else heads
  let hcyl := sectors / secpt
  if heads * 1024 ≤ hcyl then wideCalc (sectors / 63) 32 63 else wideCalc hcyl heads secpt

def clampedSectors (bc : BlockCtxt) : Nat := min (bc.size / bc.sectsz) maxChsSectors

def wideChs (bc : BlockCtxt) : WideChs :=
  if bc.size ≤ 2880 * 512 then wideCalc (bc.size / bc.sectsz / 18) 2 18
  else if 65536 * 16 * 63 ≤ clampedSectors bc then wideCalc (clampedSectors bc / 63) 32 63
  else wideSearch (clampedSectors bc)

def WideChs.narrow (g : WideChs) : Chs :=
  ⟨BitVec.ofNat 16 g.c, BitVec.ofNat 8 g.h, BitVec.ofNat 8 g.s⟩

/-- The geometry has less than one cylinder too few for n sectors, and none too many. -/
structure Covers (c h s n : Nat) : Prop where
  heads : 1 ≤ h
  sectors : 1 ≤ s
  within : c * h * s ≤ n
  reaches : n < (c + 1) * h * s

structure CoversDisk (bc : BlockCtxt) : Prop where
  covers : Covers (blockifChs bc).c.toNat (blockifChs bc).h.toNat (blockifChs bc).s.toNat
    (clampedSectors bc)
  cylinders : (blockifChs bc).c.toNat = (wideChs bc).c
  heads : (blockifChs bc).h.toNat = (wideChs bc).h

theorem calc_covers {heads secpt : Nat} (some_head : 1 ≤ heads) (some_sector : 1 ≤ secpt)
    (n : Nat) : Covers (n / secpt / heads) heads secpt n where
  heads := some_head
  sectors := some_sector
  within := by
    rw [Nat.div_div_eq_div_mul, Nat.mul_assoc, Nat.mul_comm heads secpt]
    exact Nat.div_mul_le_self n (secpt * heads)
  reaches := by
    rw [Nat.div_div_eq_div_mul, Nat.mul_assoc, Nat.mul_comm heads secpt]
    rw [Nat.mul_comm]
    exact Nat.lt_mul_div_succ n (Nat.mul_pos some_sector some_head)

theorem narrow_calc (hcyl heads secpt : Nat) :
    (wideCalc hcyl heads secpt).narrow = chsCalc hcyl heads secpt := rfl

theorem narrow_search (sectors : Nat) : (wideSearch sectors).narrow = chsSearch sectors := by
  simp only [wideSearch, chsSearch]
  generalize sectors / 17 = hcyl
  generalize heads_def : (hcyl + 1023) / 1024 = heads
  generalize short_def : (if heads % 256 < 4 then 4 else heads % 256) = short
  have clipped : 4 ≤ short ∧ short < 256 := by
    rw [← short_def]
    split <;> omega
  by_cases fits : heads < 256
  · have same : max 4 heads = short := by
      rw [← short_def]
      split <;> omega
    rw [same]
    generalize (decide (short * 1024 ≤ hcyl) || decide (16 < short)) = retry
    cases retry with
    | false =>
      simp only [Bool.false_eq_true, if_false]
      split <;> exact narrow_calc _ _ _
    | true =>
      simp only [if_true]
      split <;> exact narrow_calc _ _ _
  · have wide : (decide (max 4 heads * 1024 ≤ hcyl) || decide (16 < max 4 heads)) = true := by
      rw [Bool.or_eq_true, decide_eq_true_eq, decide_eq_true_eq]
      right
      omega
    have cut : (decide (short * 1024 ≤ hcyl) || decide (16 < short)) = true := by
      rw [Bool.or_eq_true, decide_eq_true_eq]
      left
      omega
    simp only [wide, cut, if_true]
    split <;> exact narrow_calc _ _ _

theorem narrow_chs (bc : BlockCtxt) : (wideChs bc).narrow = blockifChs bc := by
  have clamp : (if maxChsSectors < bc.size / bc.sectsz then maxChsSectors
      else bc.size / bc.sectsz) = clampedSectors bc := by
    unfold clampedSectors
    split <;> omega
  unfold wideChs blockifChs
  simp only [clamp]
  split
  · exact narrow_calc _ _ _
  · split
    · exact narrow_calc _ _ _
    · exact narrow_search _

structure WideBounds (g : WideChs) (n : Nat) : Prop where
  covers : Covers g.c g.h g.s n
  heads : g.h < 2 ^ 8
  sectors : g.s < 2 ^ 8
  cylinders : (g.c < 2 ^ 16 ∧ g.h ≤ 16 ∧ g.s ≤ 31) ∨ (g.h = 32 ∧ g.s = 63)

theorem calc_bounds {heads secpt n : Nat} (some_head : 1 ≤ heads) (few_heads : heads < 2 ^ 8)
    (some_sector : 1 ≤ secpt) (few_sectors : secpt < 2 ^ 8)
    (cylinders : (n / secpt / heads < 2 ^ 16 ∧ heads ≤ 16 ∧ secpt ≤ 31) ∨
      (heads = 32 ∧ secpt = 63)) :
    WideBounds (wideCalc (n / secpt) heads secpt) n :=
  ⟨calc_covers some_head some_sector n, few_heads, few_sectors, cylinders⟩

theorem search_bounds (n : Nat) : WideBounds (wideSearch n) n := by
  simp only [wideSearch]
  generalize heads_def : max 4 ((n / 17 + 1023) / 1024) = heads
  generalize retry_def : (decide (heads * 1024 ≤ n / 17) || decide (16 < heads)) = retry
  cases retry with
  | true =>
    simp only [if_true]
    split
    · exact calc_bounds (by omega) (by omega) (by omega) (by omega) (.inr ⟨rfl, rfl⟩)
    · exact calc_bounds (by omega) (by omega) (by omega) (by omega) (.inl ⟨by omega, by omega, by omega⟩)
  | false =>
    rw [Bool.or_eq_false_iff, decide_eq_false_iff_not, decide_eq_false_iff_not] at retry_def
    simp only [Bool.false_eq_true, if_false]
    have short : n / 17 / heads < 1024 := by
      rw [Nat.div_lt_iff_lt_mul (by omega)]
      omega
    split
    · exact calc_bounds (by omega) (by omega) (by omega) (by omega) (.inr ⟨rfl, rfl⟩)
    · exact calc_bounds (by omega) (by omega) (by omega) (by omega) (.inl ⟨by omega, by omega, by omega⟩)

theorem wide_bounds (bc : BlockCtxt) : WideBounds (wideChs bc) (clampedSectors bc) := by
  unfold wideChs
  split
  · rename_i floppy
    have few : bc.size / bc.sectsz ≤ bc.size := Nat.div_le_self _ _
    have whole : clampedSectors bc = bc.size / bc.sectsz := by
      unfold clampedSectors maxChsSectors
      omega
    rw [whole]
    have cylinders : bc.size / bc.sectsz / 18 / 2 < 2 ^ 16 := by
      omega
    exact calc_bounds (by omega) (by omega) (by omega) (by omega)
      (.inl ⟨cylinders, by omega, by omega⟩)
  · split
    · exact calc_bounds (by omega) (by omega) (by omega) (by omega) (.inr ⟨rfl, rfl⟩)
    · exact search_bounds _

def cylinderLimit : Nat := 65536 * 32 * 63

theorem wide_cylinders_iff (bc : BlockCtxt) :
    (wideChs bc).c < 2 ^ 16 ↔ bc.size / bc.sectsz < cylinderLimit := by
  obtain ⟨covers, -, -, cylinders⟩ := wide_bounds bc
  have clamp : clampedSectors bc < cylinderLimit ↔ bc.size / bc.sectsz < cylinderLimit := by
    unfold clampedSectors cylinderLimit maxChsSectors
    omega
  rw [← clamp]
  obtain ⟨-, -, within, reaches⟩ := covers
  unfold cylinderLimit
  rcases cylinders with ⟨few, heads, sectors⟩ | ⟨heads, sectors⟩
  · have small : ((wideChs bc).c + 1) * (wideChs bc).h * (wideChs bc).s ≤ 65536 * 16 * 31 :=
      Nat.mul_le_mul (Nat.mul_le_mul (by omega) heads) sectors
    omega
  · rw [heads, sectors] at within reaches
    omega

/-- The cylinders keep their low sixteen bits: what is stored is right exactly for the disks with
fewer sectors than sixteen bits of cylinders can count. -/
theorem chs_covers_iff (bc : BlockCtxt) : CoversDisk bc ↔ bc.size / bc.sectsz < cylinderLimit := by
  obtain ⟨covers, few_heads, few_sectors, -⟩ := wide_bounds bc
  have cylinders : (blockifChs bc).c.toNat = (wideChs bc).c % 2 ^ 16 := by
    rw [← narrow_chs, WideChs.narrow, BitVec.toNat_ofNat]
  have heads : (blockifChs bc).h.toNat = (wideChs bc).h := by
    rw [← narrow_chs, WideChs.narrow, BitVec.toNat_ofNat, Nat.mod_eq_of_lt few_heads]
  have sectors : (blockifChs bc).s.toNat = (wideChs bc).s := by
    rw [← narrow_chs, WideChs.narrow, BitVec.toNat_ofNat, Nat.mod_eq_of_lt few_sectors]
  rw [← wide_cylinders_iff]
  constructor
  · intro disk
    have kept := disk.cylinders
    rw [cylinders] at kept
    rw [← kept]
    exact Nat.mod_lt _ (by decide)
  · intro few
    have kept : (blockifChs bc).c.toNat = (wideChs bc).c := by
      rw [cylinders, Nat.mod_eq_of_lt few]
    refine ⟨?_, kept, heads⟩
    rw [kept, heads, sectors]
    exact covers

def widestDisk : BlockCtxt := blankDisk (512 * cylinderLimit) (by decide)

theorem no_cylinder_left : ¬ CoversDisk widestDisk := by
  intro disk
  have stored : (blockifChs widestDisk).c.toNat = 0 := by decide +kernel
  have computed : (wideChs widestDisk).c = 65536 := by decide +kernel
  have kept := disk.cylinders
  contradiction
end BlockIf
