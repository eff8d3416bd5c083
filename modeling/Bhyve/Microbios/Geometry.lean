import Mathlib.Tactic.Ring
import Bhyve.Microbios.Int13

/-!
AH=08h against AH=02h/03h, which read the cylinder number from CX in two different ways.
-/
namespace Microbios
open BlockIf

def decodeChs (ecx edx : BitVec 32) : Nat × Nat × Nat :=
  ((chsCylinder ecx).toNat, (chsHead edx).toNat, (chsSector ecx).toNat)

/-- A guest that takes CX:DX of AH=08h for an address gets the last sector. -/
def GeometryAgrees (g : Chs) (ecx edx : BitVec 32) : Prop :=
  decodeChs ecx edx = (g.c.toNat - 1, g.h.toNat - 1, g.s.toNat) ∧
    (chsLba g (chsCylinder ecx) (chsHead edx) (chsSector ecx)).toNat + 1 =
      g.c.toNat * g.h.toNat * g.s.toNat

theorem cylinder_field_decode : ∀ x : BitVec 10,
    (chsCylinder ((x.setWidth 32 <<< 6) &&& 0xffc0)).toNat =
      x.toNat / 4 + 256 * (x.toNat % 4) := by
  decide

theorem cylinder_ignores_sector (a t : BitVec 32) :
    chsCylinder (a ||| (t &&& 0x3f)) = chsCylinder a := by
  have shifted : (t &&& 0x3f) >>> 8 = 0#32 := by
    rw [BitVec.ushiftRight_and_distrib]
    exact BitVec.and_zero
  have low : (t &&& 0x3f) &&& 0xff &&& 0xc0 = 0#32 := by
    rw [BitVec.and_assoc, BitVec.and_assoc]
    exact BitVec.and_zero
  simp only [chsCylinder, regHibyte, regLobyte, BitVec.ushiftRight_or_distrib, shifted,
    BitVec.and_or_distrib_right, low, BitVec.or_zero]

theorem sector_ignores_cylinder (a t : BitVec 32) :
    chsSector ((a &&& 0xffc0) ||| (t &&& 0x3f)) = t &&& 0x3f := by
  have cleared : a &&& 0xffc0 &&& 0xff &&& 0x3f = 0#32 := by
    rw [BitVec.and_assoc, BitVec.and_assoc]
    exact BitVec.and_zero
  simp only [chsSector, regLobyte, BitVec.and_or_distrib_right, cleared, BitVec.zero_or]
  rw [BitVec.and_assoc, BitVec.and_assoc]
  rfl

theorem head_field_decode : ∀ h : BitVec 8, 1 ≤ h.toNat → h.toNat ≤ 64 →
    (chsHead (((h.setWidth 32 - 1) <<< 8) ||| 0x01)).toNat = h.toNat - 1 := by
  decide

theorem sector_field_decode : ∀ s : BitVec 8, s.toNat ≤ 63 →
    (s.setWidth 32 &&& 0x3f : BitVec 32).toNat = s.toNat := by
  decide

theorem decode_encode (g : Chs) (bounds : GeometryBounds g) (low : 1 ≤ g.c.toNat)
    (high : g.c.toNat ≤ 1024) : decodeChs (encodeCx g) (encodeDx g) =
      ((g.c.toNat - 1) / 4 + 256 * ((g.c.toNat - 1) % 4), g.h.toNat - 1, g.s.toNat) := by
  have fits : (g.c.toNat - 1) < 2 ^ 10 := by omega
  have field : (g.c.setWidth 32 - 1 : BitVec 32) =
      (BitVec.ofNat 10 (g.c.toNat - 1)).setWidth 32 := by
    apply BitVec.eq_of_toNat_eq
    have := g.c.isLt
    bv_omega
  have cylinder := cylinder_field_decode (BitVec.ofNat 10 (g.c.toNat - 1))
  rw [BitVec.toNat_ofNat, Nat.mod_eq_of_lt fits] at cylinder
  have head := head_field_decode g.h (by have := bounds.heads_pos; omega)
    (by have := bounds.heads_le; omega)
  have sector := sector_field_decode g.s bounds.sectors_le
  simp only [decodeChs, encodeCx, encodeDx, field, cylinder_ignores_sector,
    sector_ignores_cylinder, cylinder, head, sector]

theorem chs_lba_to_nat {g : Chs} (bounds : GeometryBounds g) {cylinder head sector : BitVec 32}
    (cylinder_lt : cylinder.toNat < 1024) (head_lt : head.toNat < 64)
    (sector_pos : 1 ≤ sector.toNat) (sector_lt : sector.toNat < 64) :
    (chsLba g cylinder head sector).toNat + 1 =
      (cylinder.toNat * g.h.toNat + head.toNat) * g.s.toNat + sector.toNat := by
  have tracks : cylinder.toNat * g.h.toNat + head.toNat ≤ 1023 * 32 + 63 := by
    have := Nat.mul_le_mul (by omega : cylinder.toNat ≤ 1023) bounds.heads_le
    omega
  have total := Nat.mul_le_mul tracks bounds.sectors_le
  have heads_lt : g.h.toNat < 2 ^ 32 := by have := bounds.heads_le; omega
  have sectors_lt : g.s.toNat < 2 ^ 32 := by have := bounds.sectors_le; omega
  have step : (cylinder.toNat * g.h.toNat + head.toNat) % 2 ^ 32 =
      cylinder.toNat * g.h.toNat + head.toNat := Nat.mod_eq_of_lt (by omega)
  have one : (1 : BitVec 32).toNat = 1 := rfl
  simp only [chsLba, BitVec.toNat_sub, BitVec.toNat_add, BitVec.toNat_mul, BitVec.toNat_setWidth,
    Nat.mod_eq_of_lt heads_lt, Nat.mod_eq_of_lt sectors_lt, Nat.mod_add_mod, step, one]
  omega

theorem last_sector_product (c h s : Nat) (c_pos : 1 ≤ c) (h_pos : 1 ≤ h) :
    ((c - 1) * h + (h - 1)) * s + s = c * h * s := by
  obtain ⟨x, rfl⟩ : ∃ x, c = x + 1 := ⟨c - 1, by omega⟩
  obtain ⟨y, rfl⟩ : ∃ y, h = y + 1 := ⟨h - 1, by omega⟩
  simp only [Nat.add_sub_cancel]
  ring

section
variable (host : Host) (m : Machine) (regs : InthRegs) (bc : BlockCtxt)
  (function : regHibyte regs.eax = 0x08) (hard : 0x80 ≤ diskByte regs)
  (registered : m.disks.disks[diskIndex regs]? = some bc)
include host m regs bc function hard registered

theorem int13_params_geometry : ∃ r, handleInt13 host m regs = .ok r ∧
      r.machine.vcpu.ecx = encodeCx (blockifChs bc) ∧
      r.machine.vcpu.edx = encodeDx (blockifChs bc) := by
  have found := (mddisk_ok_iff m (diskIndex regs) bc).mpr registered
  have notFloppy : ¬ diskByte regs < 0x80 := BitVec.not_lt.mpr hard
  have plain : (0x08 : BitVec 32) ∉ int13Plain := by decide
  simp only [handleInt13, int13Switch, int13Params, function, plain, notFloppy, found, ↓reduceIte,
    BitVec.reduceEq, or_self, or_true, Except.map]
  exact ⟨_, rfl, rfl, rfl⟩

/-- For every disk with at most 1024 cylinders, CX:DX of AH=08h reads back as its last
    sector if and only if the cylinder count is 1, 342, 683 or 1024. -/
theorem geometry_agrees_iff
    (low : 1 ≤ (blockifChs bc).c.toNat) (high : (blockifChs bc).c.toNat ≤ 1024) :
    ∃ r, handleInt13 host m regs = .ok r ∧
      (GeometryAgrees (blockifChs bc) r.machine.vcpu.ecx r.machine.vcpu.edx ↔
        (blockifChs bc).c.toNat = 1 ∨ (blockifChs bc).c.toNat = 342 ∨
          (blockifChs bc).c.toNat = 683 ∨ (blockifChs bc).c.toNat = 1024) := by
  obtain ⟨r, returned, ecx, edx⟩ :=
    int13_params_geometry host m regs bc function hard registered
  refine ⟨r, returned, ?_⟩
  rw [ecx, edx]
  have bounds := chs_bounds bc
  have decoded := decode_encode (blockifChs bc) bounds low high
  constructor
  · intro agrees
    have cylinder := congrArg Prod.fst (decoded.symm.trans agrees.1)
    omega
  · intro fixed
    have same : decodeChs (encodeCx (blockifChs bc)) (encodeDx (blockifChs bc)) =
        ((blockifChs bc).c.toNat - 1, (blockifChs bc).h.toNat - 1, (blockifChs bc).s.toNat) := by
      rw [decoded]
      have : ((blockifChs bc).c.toNat - 1) / 4 + 256 * (((blockifChs bc).c.toNat - 1) % 4) =
          (blockifChs bc).c.toNat - 1 := by omega
      rw [this]
    obtain ⟨cylinder, rest⟩ := Prod.mk.inj same
    obtain ⟨head, sector⟩ := Prod.mk.inj rest
    obtain ⟨heads_pos, heads_le, sectors_pos, sectors_le⟩ := bounds
    refine ⟨same, ?_⟩
    rw [chs_lba_to_nat (chs_bounds bc) (by omega) (by omega) (by omega) (by omega), cylinder,
      head, sector]
    exact last_sector_product _ _ _ low (by omega)

end

def floppyImage : BlockCtxt := blankDisk 1474560 (by decide)

def floppyMachine : Machine := freshMachine (microbiosRegisterDisk noDisks floppyImage)

def allMapped : Host := ⟨fun _ _ => true, 0⟩

theorem geometry_agrees_iff_floppy :
    ∃ r, handleInt13 allMapped floppyMachine (blankRegs 0x0800 0 0x80) = .ok r ∧
      (GeometryAgrees (blockifChs floppyImage) r.machine.vcpu.ecx r.machine.vcpu.edx ↔
        (blockifChs floppyImage).c.toNat = 1 ∨ (blockifChs floppyImage).c.toNat = 342 ∨
          (blockifChs floppyImage).c.toNat = 683 ∨ (blockifChs floppyImage).c.toNat = 1024) :=
  geometry_agrees_iff allMapped floppyMachine (blankRegs 0x0800 0 0x80) floppyImage (by decide)
    (by decide) rfl (by decide) (by decide)

theorem geometry_of_floppy_image :
    (1 ≤ (blockifChs floppyImage).c.toNat ∧ (blockifChs floppyImage).c.toNat ≤ 1024) ∧
      ∃ r, handleInt13 allMapped floppyMachine (blankRegs 0x0800 0 0x80) = .ok r ∧
        ¬ GeometryAgrees (blockifChs floppyImage) r.machine.vcpu.ecx r.machine.vcpu.edx := by
  refine ⟨by decide, ?_⟩
  obtain ⟨r, returned, ecx, edx⟩ := int13_params_geometry allMapped floppyMachine
    (blankRegs 0x0800 0 0x80) floppyImage (by decide) (by decide) rfl
  refine ⟨r, returned, ?_⟩
  rw [ecx, edx]
  rintro ⟨decoded, -⟩
  revert decoded
  decide

end Microbios
