import Mathlib.Tactic.Ring

/-!
Times of whole seconds and a fraction of 64 bits. Seconds are unbounded. The arithmetic goes by the
two parts, with carry and borrow, and is that of the units of the fraction.
-/
namespace Bintimes
open BitVec

structure Bintime where
  sec : Int
  frac : BitVec 64
deriving DecidableEq

def units (bt : Bintime) : Int := bt.sec * 2 ^ 64 + bt.frac.toNat

def bintimeAdd (bt bt2 : Bintime) : Bintime :=
  let frac := bt.frac + bt2.frac
  ⟨bt.sec + (if frac < bt.frac then 1 else 0) + bt2.sec, frac⟩

def bintimeSub (bt bt2 : Bintime) : Bintime :=
  let frac := bt.frac - bt2.frac
  ⟨bt.sec - (if bt.frac < frac then 1 else 0) - bt2.sec, frac⟩

def bintimeMul (bt : Bintime) (x : BitVec 32) : Bintime :=
  let p1 := (bt.frac &&& 0xffffffff) * x.setWidth 64
  let p2 := (bt.frac >>> 32) * x.setWidth 64 + (p1 >>> 32)
  ⟨bt.sec * x.toNat + (p2 >>> 32).toNat, p2 <<< 32 ||| p1 &&& 0xffffffff⟩

def Before (bt bt2 : Bintime) : Prop :=
  if bt.sec = bt2.sec then bt.frac < bt2.frac else bt.sec < bt2.sec

instance (bt bt2 : Bintime) : Decidable (Before bt bt2) :=
  if same : bt.sec = bt2.sec then
    decidable_of_iff (bt.frac < bt2.frac) (by unfold Before; rw [if_pos same])
  else decidable_of_iff (bt.sec < bt2.sec) (by unfold Before; rw [if_neg same])

def bttosbt (bt : Bintime) : Int := bt.sec * 2 ^ 32 + (bt.frac >>> 32).toNat

def ofUnits (n : Nat) : Bintime := ⟨(n / 2 ^ 64 : Nat), BitVec.ofNat 64 n⟩

theorem units_of_units (n : Nat) : units (ofUnits n) = n := by
  unfold units ofUnits
  dsimp only
  rw [toNat_ofNat]
  omega

theorem units_add (bt bt2 : Bintime) : units (bintimeAdd bt bt2) = units bt + units bt2 := by
  have sum : (bt.frac + bt2.frac).toNat = (bt.frac.toNat + bt2.frac.toNat) % 2 ^ 64 :=
    toNat_add bt.frac bt2.frac
  unfold units bintimeAdd
  dsimp only
  by_cases carry : bt.frac + bt2.frac < bt.frac
  · rw [if_pos carry]
    rw [lt_def] at carry
    omega
  · rw [if_neg carry]
    rw [lt_def] at carry
    omega

theorem units_sub (bt bt2 : Bintime) : units (bintimeSub bt bt2) = units bt - units bt2 := by
  have difference := toNat_sub bt.frac bt2.frac
  unfold units bintimeSub
  dsimp only
  by_cases borrow : bt.frac < bt.frac - bt2.frac
  · rw [if_pos borrow]
    rw [lt_def] at borrow
    omega
  · rw [if_neg borrow]
    rw [lt_def] at borrow
    omega

theorem before_iff (bt bt2 : Bintime) : Before bt bt2 ↔ units bt < units bt2 := by
  unfold Before units
  split
  · next same =>
    rw [lt_def]
    omega
  · omega

theorem halves_to_nat (high low : BitVec 64) : (high <<< 32 ||| low &&& 0xffffffff).toNat =
      high.toNat % 2 ^ 32 * 2 ^ 32 + low.toNat % 2 ^ 32 := by
  have masked : (low &&& 0xffffffff).toNat = low.toNat % 2 ^ 32 := by
    exact Nat.and_two_pow_sub_one_eq_mod low.toNat 32
  have shifted : (high <<< 32).toNat = (high.toNat % 2 ^ 32) <<< 32 := by
    rw [toNat_shiftLeft, Nat.shiftLeft_eq, Nat.shiftLeft_eq]
    omega
  have small : low.toNat % 2 ^ 32 < 2 ^ 32 := Nat.mod_lt _ (Nat.two_pow_pos 32)
  rw [toNat_or, masked, shifted, ← Nat.shiftLeft_add_eq_or_of_lt small, Nat.shiftLeft_eq]

theorem units_mul (bt : Bintime) (x : BitVec 32) : units (bintimeMul bt x) = units bt * x.toNat := by
  have factor : x.toNat ≤ 2 ^ 32 - 1 := Nat.le_sub_one_of_lt x.isLt
  have widened : (x.setWidth 64).toNat = x.toNat := by
    rw [toNat_setWidth]
    omega
  have low : (bt.frac &&& 0xffffffff).toNat = bt.frac.toNat % 2 ^ 32 := by
    exact Nat.and_two_pow_sub_one_eq_mod bt.frac.toNat 32
  have high : (bt.frac >>> 32).toNat = bt.frac.toNat / 2 ^ 32 := by
    rw [toNat_ushiftRight, Nat.shiftRight_eq_div_pow]
  have lowSmall : bt.frac.toNat % 2 ^ 32 * x.toNat ≤ (2 ^ 32 - 1) * (2 ^ 32 - 1) :=
    Nat.mul_le_mul (by omega) factor
  have highSmall : bt.frac.toNat / 2 ^ 32 * x.toNat ≤ (2 ^ 32 - 1) * (2 ^ 32 - 1) :=
    Nat.mul_le_mul (by omega) factor
  have first : ((bt.frac &&& 0xffffffff) * x.setWidth 64).toNat =
      bt.frac.toNat % 2 ^ 32 * x.toNat := by
    rw [toNat_mul, low, widened]
    omega
  have second : ((bt.frac >>> 32) * x.setWidth 64 +
      ((bt.frac &&& 0xffffffff) * x.setWidth 64) >>> 32).toNat =
      bt.frac.toNat / 2 ^ 32 * x.toNat + bt.frac.toNat % 2 ^ 32 * x.toNat / 2 ^ 32 := by
    rw [toNat_add, toNat_mul, high, widened, toNat_ushiftRight, first,
      Nat.shiftRight_eq_div_pow]
    omega
  have whole : (bt.sec * 2 ^ 64 + bt.frac.toNat) * x.toNat = bt.sec * x.toNat * 2 ^ 64 +
      (bt.frac.toNat / 2 ^ 32 * x.toNat : Nat) * 2 ^ 32 +
      (bt.frac.toNat % 2 ^ 32 * x.toNat : Nat) := by
    have parts : (bt.frac.toNat : Int) =
        (bt.frac.toNat / 2 ^ 32 : Nat) * 2 ^ 32 + (bt.frac.toNat % 2 ^ 32 : Nat) := by omega
    rw [parts]
    push_cast
    ring
  unfold units bintimeMul
  dsimp only
  rw [halves_to_nat, toNat_ushiftRight, Nat.shiftRight_eq_div_pow, first, second, whole]
  omega

theorem sbt_units (bt : Bintime) : bttosbt bt = units bt / 2 ^ 32 := by
  unfold bttosbt units
  rw [toNat_ushiftRight, Nat.shiftRight_eq_div_pow]
  omega

end Bintimes
