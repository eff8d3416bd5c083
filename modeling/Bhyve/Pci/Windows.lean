import Bhyve.Lib.AlignedWords
import Bhyve.Pci.Bars

/-!
The resources that init_pci hands out, one bus after the other, and the windows of the buses, which
are recorded in fields of 16, 32 and 64 bits.
-/
namespace PciWindows
open Pci AlignedWords List BitVec

structure Request (D : Type) where
  d : D
  idx : Nat
  type : BarType
  size : BitVec 64

structure Allotted where
  size : BitVec 64
  bar : Bar

structure Businfo where
  iobase : BitVec 16
  iolimit : BitVec 16
  membase32 : BitVec 32
  memlimit32 : BitVec 32
  membase64 : BitVec 64
  memlimit64 : BitVec 64
  bars : List Allotted

section
variable {D : Type} [DecidableEq D]

/-- What pci_emul_alloc_pbar allots with hostbase 0. -/
def allotted (s : Bus D) (r : Request D) : Option Allotted :=
  let size := barSize r.type r.size
  let pool := poolOf r.type size
  (pciEmulAllocResource (if pool = .host then 0 else s.next pool) pool.limit size).map
    fun addr => ⟨r.size, ⟨r.type, size, addr⟩⟩

def allocBar (s : Bus D) (r : Request D) : Except BusFault (Bus D) :=
  pciEmulAllocBar s r.d r.idx r.type r.size

def initDevices : List (Request D) → Bus D → Except BusFault (Bus D × List Allotted)
  | [], s => .ok (s, [])
  | r :: rest, s =>
      match allocBar s r with
      | .error fault => .error fault
      | .ok s' =>
          match initDevices rest s' with
          | .error fault => .error fault
          | .ok (s'', bars) => .ok (s'', (allotted s r).toList ++ bars)

def businfo (base limit : Pool → BitVec 64) (bars : List Allotted) : Businfo where
  iobase := (base .io).setWidth 16
  iolimit := (limit .io).setWidth 16
  membase32 := (base .mem32).setWidth 32
  memlimit32 := (limit .mem32).setWidth 32
  membase64 := base .mem64
  memlimit64 := limit .mem64
  bars := bars

def initPci : List (List (Request D)) → Bus D → Except BusFault (List Businfo)
  | [], _ => .ok []
  | requests :: rest, s =>
      match initDevices requests s with
      | .error fault => .error fault
      | .ok (s', bars) =>
          match initPci rest (nextBus s') with
          | .error fault => .error fault
          | .ok others => .ok (businfo s.next (nextBus s').next bars :: others)

end

structure Machine (D : Type) where
  buses : List (List (Request D))
  start : Bus D
  few : buses.length ≤ 256
  iobase : start.next .io = 0x2000
  lowmem : (start.next .mem32).toNat ≤ 0xe0000000
  membase64 : start.next .mem64 = 0xd000000000

section
variable {D : Type} [DecidableEq D]

def Businfo.window (b : Businfo) : Pool → Nat × Nat
  | .io => (b.iobase.toNat, b.iolimit.toNat)
  | .mem32 => (b.membase32.toNat, b.memlimit32.toNat)
  | .mem64 | .host => (b.membase64.toNat, b.memlimit64.toNat)

/-- The pool whose window a register is to be in. -/
def Allotted.pool (a : Allotted) : Pool :=
  match poolOf a.bar.type a.bar.size with
  | .host => .mem64
  | pool => pool

/-- It is aligned to its size, as large as was asked for, and in the window of its pool. -/
structure Sound (start : Pool → BitVec 64) (a : Allotted) : Prop where
  aligned : a.bar.size.toNat ∣ a.bar.addr.toNat
  large : a.size ≤ a.bar.size
  above : (start a.pool).toNat ≤ a.bar.addr.toNat
  below : a.bar.addr.toNat + a.bar.size.toNat ≤ a.pool.limit.toNat

def Apart (a b : Allotted) : Prop := (a.bar.type = .io ↔ b.bar.type = .io) →
  a.bar.addr.toNat + a.bar.size.toNat ≤ b.bar.addr.toNat ∨
    b.bar.addr.toNat + b.bar.size.toNat ≤ a.bar.addr.toNat

def Businfo.Contains (b : Businfo) (a : Allotted) : Prop :=
  (b.window a.pool).1 ≤ a.bar.addr.toNat ∧
    a.bar.addr.toNat + a.bar.size.toNat ≤ (b.window a.pool).2

structure Allocated (m : Machine D) : Prop where
  placed : ∀ infos, initPci m.buses m.start = .ok infos →
    (∀ b ∈ infos, ∀ a ∈ b.bars, Sound m.start.next a ∧ b.Contains a) ∧
      (infos.flatMap (·.bars)).Pairwise Apart ∧
      infos.Pairwise fun b c => ∀ pool, (b.window pool).2 ≤ (c.window pool).1 ∨
        (c.window pool).2 ≤ (b.window pool).1
  failed : ∀ (s s' : Bus D) (r : Request D), allotted s r = none → allocBar s r = .ok s' → s' = s

/-- A size that can be rounded up, of a register that is not for peer-to-peer DMA. -/
def Fits (r : Request D) : Prop :=
  r.size.toNat ≤ 2 ^ 62 ∧ poolOf r.type (barSize r.type r.size) ≠ .host

/-- The requests fit, and behind those of a bus there is room for its slop below port 65536. -/
def HasRoom : List (List (Request D)) → Bus D → Prop
  | [], _ => True
  | requests :: rest, s => (∀ r ∈ requests, Fits r) ∧ ∀ s' bars,
      initDevices requests s = .ok (s', bars) → (s'.next .io).toNat ≤ 0xffc0 ∧ HasRoom rest (nextBus s')

end

section
variable {x y : BitVec 64} {k : Nat}

theorem roundup2_toNat (power : y.toNat = 2 ^ k) (room : x.toNat + 2 ^ k ≤ 2 ^ 64) :
    (roundup2 x y).toNat = (x.toNat + (2 ^ k - 1)) / 2 ^ k * 2 ^ k := by
  have positive := Nat.two_pow_pos k
  have inside : k < 64 := by
    have small := y.isLt
    rw [power] at small
    exact (Nat.pow_lt_pow_iff_right (by decide)).mp small
  have twoPow : y = BitVec.twoPow 64 k :=
    eq_of_toNat_eq (by rw [power, toNat_twoPow_of_lt inside])
  have pred : (y - 1).toNat = 2 ^ k - 1 := by
    rw [toNat_sub_of_le (by rw [le_def, power]; exact positive), power]
    rfl
  have sum : (x + (y - 1)).toNat = x.toNat + (2 ^ k - 1) := by
    rw [toNat_add, pred, Nat.mod_eq_of_lt (by omega)]
  rw [← sum, roundup2, twoPow]
  exact floor_toNat inside _

theorem at_least (least : BitVec 64) (j : Nat) (small : j ≤ 62) (power : least.toNat = 2 ^ j)
    (whole : y = 0 ∨ ∃ k ≤ 62, y.toNat = 2 ^ k) :
    ∃ k ≤ 62, (if y < least then least else y).toNat = 2 ^ k ∧ y ≤ if y < least then least else y := by
  split_ifs with less
  · exact ⟨j, small, power, BitVec.le_of_lt less⟩
  · rcases whole with rfl | ⟨k, bound, value⟩
    · have positive := Nat.two_pow_pos j
      rw [lt_def, power] at less
      exact absurd positive less
    · exact ⟨k, bound, value, BitVec.le_refl y⟩

theorem bar_size_power (type : BarType) (small : x.toNat ≤ 2 ^ 62) :
    ∃ k ≤ 62, (barSize type x).toNat = 2 ^ k ∧ x ≤ barSize type x := by
  obtain ⟨y, same, whole, large⟩ : ∃ y, (if x &&& (x - 1) ≠ 0 then (1 : BitVec 64) <<< flsl x else x) = y ∧
      (y = 0 ∨ ∃ k ≤ 62, y.toNat = 2 ^ k) ∧ x ≤ y := by
    refine ⟨_, rfl, ?_⟩
    split_ifs with broken
    · have other : x.toNat ≠ 2 ^ 62 := by
        intro value
        rw [show x = 0x4000000000000000#64 from eq_of_toNat_eq value] at broken
        exact broken rfl
      have some_bit : x ≠ 0 := by
        rintro rfl
        exact broken rfl
      have nonzero : x.toNat ≠ 0 := fun zero => some_bit (eq_of_toNat_eq zero)
      have log := (Nat.log2_lt nonzero).mpr (show x.toNat < 2 ^ 62 by omega)
      have value : ((1 : BitVec 64) <<< flsl x).toNat = 2 ^ (x.toNat.log2 + 1) := by
        rw [flsl, if_neg some_bit, toNat_shiftLeft, Nat.shiftLeft_eq,
          show (1 : BitVec 64).toNat = 1 from rfl, Nat.one_mul, Nat.mod_eq_of_lt]
        exact Nat.pow_lt_pow_right (by decide) (by omega)
      refine ⟨.inr ⟨_, log, value⟩, ?_⟩
      rw [le_def, value]
      exact Nat.le_of_lt ((Nat.log2_lt nonzero).mp (Nat.lt_succ_self _))
    · refine ⟨?_, BitVec.le_refl x⟩
      by_cases zero : x = 0
      · exact .inl zero
      · obtain ⟨k, inside, value⟩ := twoPow_of_and_pred (not_not.mp broken) zero
        have nat : x.toNat = 2 ^ k := by rw [value, toNat_twoPow_of_lt inside]
        rw [nat] at small
        exact .inr ⟨k, (Nat.pow_le_pow_iff_right (by decide)).mp small, nat⟩
  unfold barSize
  rw [same]
  by_cases io : type = .io
  · obtain ⟨k, bound, value, more⟩ := at_least 4 2 (by decide) rfl whole
    rw [if_pos io]
    exact ⟨k, bound, value, BitVec.le_trans large more⟩
  · obtain ⟨k, bound, value, more⟩ := at_least 16 4 (by decide) rfl whole
    rw [if_neg io]
    exact ⟨k, bound, value, BitVec.le_trans large more⟩

structure Bounded (n : Nat) (next : Pool → BitVec 64) : Prop where
  io : (next .io).toNat ≤ 0xffe0
  mem32 : (next .mem32).toNat ≤ 0xe0000000 + n * 2 ^ 20
  mem64 : (next .mem64).toNat ≤ 0xfd00000000 + n * 2 ^ 20

theorem next_bus_bounded {D : Type} {s : Bus D} {n : Nat} (few : n < 256) (io : (s.next .io).toNat ≤ 0xffc0)
    (mem32 : (s.next .mem32).toNat ≤ 0xe0000000 + n * 2 ^ 20)
    (mem64 : (s.next .mem64).toNat ≤ 0xfd00000000 + n * 2 ^ 20) : Bounded (n + 1) (nextBus s).next ∧
      ∀ p ≠ .host, (s.next p).toNat ≤ ((nextBus s).next p).toNat := by
  have rounded : ∀ p y, ∀ j ≤ 20, (if p = Pool.io then busioRoundup else busmemRoundup) = y →
      y.toNat = 2 ^ j → (s.next p).toNat ≤ 2 ^ 41 → ((nextBus s).next p).toNat =
        ((s.next p).toNat + 2 ^ j + (2 ^ j - 1)) / 2 ^ j * 2 ^ j := by
    intro p y j small slop power low
    have most : 2 ^ j ≤ 2 ^ 20 := Nat.pow_le_pow_right (by decide) small
    have sum := toNat_add_of_lt (show (s.next p).toNat + y.toNat < 2 ^ 64 by omega)
    rw [show (nextBus s).next p = roundup2 (s.next p + y) y from slop ▸ rfl,
      roundup2_toNat power (by omega), sum, power]
  have ports := rounded .io 32 5 (by decide) rfl rfl (by omega)
  have low := rounded .mem32 _ 20 (by decide) rfl rfl (by omega)
  have high := rounded .mem64 _ 20 (by decide) rfl rfl (by omega)
  refine ⟨⟨by omega, by omega, by omega⟩, fun p plain => ?_⟩
  cases p with
  | io => omega
  | mem32 => omega
  | mem64 => omega
  | host => exact absurd rfl plain

theorem window_eq {n : Nat} {base limit : Pool → BitVec 64} (few : n ≤ 256) (low : Bounded n base)
    (high : Bounded n limit) (bars : List Allotted) {p : Pool} (plain : p ≠ .host) :
    (businfo base limit bars).window p = ((base p).toNat, (limit p).toNat) := by
  obtain ⟨io, mem32, -⟩ := low
  obtain ⟨io', mem32', -⟩ := high
  cases p with
  | host => exact absurd rfl plain
  | mem64 => rfl
  | io =>
    simp only [Businfo.window, businfo, toNat_setWidth, Prod.mk.injEq]
    omega
  | mem32 =>
    simp only [Businfo.window, businfo, toNat_setWidth, Prod.mk.injEq]
    omega

theorem bounded_more {n : Nat} {next : Pool → BitVec 64} (bounded : Bounded n next) :
    Bounded (n + 1) next := by
  obtain ⟨io, mem32, mem64⟩ := bounded
  have more : n * 2 ^ 20 ≤ (n + 1) * 2 ^ 20 := Nat.mul_le_mul_right _ (Nat.le_succ n)
  exact ⟨io, Nat.le_trans mem32 (Nat.add_le_add_left more _),
    Nat.le_trans mem64 (Nat.add_le_add_left more _)⟩

end

structure Between (lo hi : Pool → BitVec 64) (a : Allotted) : Prop where
  pool : a.pool ≠ .host
  aligned : a.bar.size.toNat ∣ a.bar.addr.toNat
  large : a.size ≤ a.bar.size
  above : (lo a.pool).toNat ≤ a.bar.addr.toNat
  below : a.bar.addr.toNat + a.bar.size.toNat ≤ (hi a.pool).toNat
  limit : a.bar.addr.toNat + a.bar.size.toNat ≤ a.pool.limit.toNat

def Before (a b : Allotted) : Prop :=
  a.pool = b.pool → a.bar.addr.toNat + a.bar.size.toNat ≤ b.bar.addr.toNat

theorem pool_space (a : Allotted) :
    (a.bar.type = .io ∧ a.pool = .io) ∨ a.bar.type ≠ .io ∧ (a.pool = .mem32 ∨ a.pool = .mem64) := by
  obtain ⟨asked, ⟨type, size, addr⟩⟩ := a
  cases type with
  | io => exact .inl ⟨rfl, rfl⟩
  | mem64 =>
    refine .inr ⟨nofun, ?_⟩
    unfold Allotted.pool poolOf
    split_ifs
    · exact .inr rfl
    · exact .inr rfl
    · exact .inl rfl
  | none => exact .inr ⟨nofun, .inl rfl⟩
  | mem32 => exact .inr ⟨nofun, .inl rfl⟩
  | memhi64 => exact .inr ⟨nofun, .inl rfl⟩

theorem apart_of_order {start : Pool → BitVec 64} (high : start .mem64 = 0xd000000000) {a b : Allotted}
    (first : Sound start a) (second : Sound start b) (order : Before a b) : Apart a b := by
  intro space
  have above := first.above
  have below := first.below
  have above' := second.above
  have below' := second.below
  rcases pool_space a with ⟨io, pool⟩ | ⟨mem, pool⟩
  · rcases pool_space b with ⟨-, pool'⟩ | ⟨mem', -⟩
    · exact .inl (order (pool.trans pool'.symm))
    · exact absurd (space.mp io) mem'
  · rcases pool_space b with ⟨io', -⟩ | ⟨-, pool'⟩
    · exact absurd (space.mpr io') mem
    · rcases pool with pool | pool
      all_goals rcases pool' with pool' | pool'
      all_goals rw [pool] at above below
      all_goals rw [pool'] at above' below'
      · exact .inl (order (pool.trans pool'.symm))
      · rw [high] at above'
        exact .inl (Nat.le_trans below (Nat.le_trans (by decide) above'))
      · rw [high] at above
        exact .inr (Nat.le_trans below' (Nat.le_trans (by decide) above))
      · exact .inl (order (pool.trans pool'.symm))

section
variable {D : Type} [DecidableEq D] {s s' : Bus D} {r : Request D}

theorem alloc_failed (none_left : allotted s r = none) (ran : allocBar s r = .ok s') : s' = s := by
  unfold allotted at none_left
  unfold allocBar pciEmulAllocBar at ran
  rw [Option.map_eq_none_iff] at none_left
  dsimp only at none_left ran
  rw [none_left] at ran
  split_ifs at ran
  all_goals exact (Except.ok.inj ran).symm

theorem resource_spec {base limit size addr : BitVec 64} {k : Nat} (power : size.toNat = 2 ^ k)
    (bound : k ≤ 62) (low : base.toNat ≤ 2 ^ 62)
    (found : pciEmulAllocResource base limit size = some addr) :
    size.toNat ∣ addr.toNat ∧ base.toNat ≤ addr.toNat ∧
      (addr + size).toNat = addr.toNat + size.toNat ∧ (addr + size).toNat ≤ limit.toNat := by
  unfold pciEmulAllocResource at found
  dsimp only at found
  split_ifs at found with inside
  cases found
  have most : 2 ^ k ≤ 2 ^ 62 := Nat.pow_le_pow_right (by decide) bound
  have up := roundup2_toNat power (show base.toNat + 2 ^ k ≤ 2 ^ 64 by omega)
  obtain ⟨least, less⟩ := roundup_bounds (Nat.two_pow_pos k) base.toNat
  rw [← up] at least less
  refine ⟨?_, least, toNat_add_of_lt (by omega), inside⟩
  rw [up, power]
  exact Nat.dvd_mul_left _ _

theorem alloc_step {a : Allotted} (fits : Fits r) (low : ∀ p ≠ .host, (s.next p).toNat ≤ 2 ^ 62)
    (found : allotted s r = some a) (ran : allocBar s r = .ok s') :
    Between s.next s'.next a ∧ (s'.next a.pool).toNat ≤ a.pool.limit.toNat ∧
      ∀ p ≠ a.pool, s'.next p = s.next p := by
  obtain ⟨small, plain⟩ := fits
  obtain ⟨k, bound, power, large⟩ := bar_size_power r.type small
  unfold allotted at found
  dsimp only at found
  rw [if_neg plain] at found
  obtain ⟨addr, resource, rfl⟩ := Option.map_eq_some_iff.mp found
  obtain ⟨aligned, above, sum, inside⟩ := resource_spec power bound (low _ plain) resource
  unfold allocBar pciEmulAllocBar at ran
  dsimp only at ran
  rw [if_neg plain, resource] at ran
  dsimp only at ran
  split_ifs at ran
  split at ran
  · cases ran
  · cases ran
    have pool : Allotted.pool ⟨r.size, ⟨r.type, barSize r.type r.size, addr⟩⟩ =
        poolOf r.type (barSize r.type r.size) := by
      unfold Allotted.pool
      split
      · exact absurd ‹_› plain
      · rfl
    have ended : Function.update s.next (poolOf r.type (barSize r.type r.size))
        (addr + barSize r.type r.size) (poolOf r.type (barSize r.type r.size)) =
        addr + barSize r.type r.size := Function.update_self _ _ _
    refine ⟨⟨pool ▸ plain, aligned, large, ?_, ?_, ?_⟩, ?_, fun p other => ?_⟩
    · rw [pool]
      exact above
    · rw [pool]
      exact Nat.le_of_eq (sum.symm.trans (congrArg BitVec.toNat ended.symm))
    · rw [pool]
      exact sum ▸ inside
    · rw [pool]
      exact Nat.le_trans (Nat.le_of_eq (congrArg BitVec.toNat ended)) inside
    · rw [pool] at other
      exact Function.update_of_ne other _ _

theorem init_devices_spec (requests : List (Request D)) : ∀ (s s' : Bus D) (bars : List Allotted),
    (∀ r ∈ requests, Fits r) → (∀ p ≠ .host, (s.next p).toNat ≤ 2 ^ 62) →
    initDevices requests s = .ok (s', bars) → (∀ p, (s.next p).toNat ≤ (s'.next p).toNat ∧
        (s'.next p).toNat ≤ max (s.next p).toNat p.limit.toNat) ∧
      (∀ a ∈ bars, Between s.next s'.next a) ∧ bars.Pairwise Before := by
  induction requests with
  | nil =>
    intro s s' bars _ _ ran
    cases ran
    exact ⟨fun p => ⟨Nat.le_refl _, Nat.le_max_left _ _⟩, fun _ => nofun, .nil⟩
  | cons r rest ih =>
    intro s s'' bars fits low ran
    unfold initDevices at ran
    split at ran
    · cases ran
    · rename_i s' first
      split at ran
      · cases ran
      · rename_i s₂ later others
        cases ran
        have fit := fits r mem_cons_self
        have fits := fun r' member => fits r' (mem_cons_of_mem r member)
        cases found : allotted s r with
        | none =>
          rw [alloc_failed found first] at others
          exact ih s _ later fits low others
        | some a =>
          obtain ⟨place, most, same⟩ := alloc_step fit low found first
          have grown : ∀ p, (s.next p).toNat ≤ (s'.next p).toNat ∧
              (s'.next p).toNat ≤ max (s.next p).toNat p.limit.toNat := by
            intro p
            by_cases here : p = a.pool
            · subst here
              have above := place.above
              have below := place.below
              omega
            · rw [same p here]
              exact ⟨Nat.le_refl _, Nat.le_max_left _ _⟩
          have limits : ∀ p : Pool, p.limit.toNat ≤ 2 ^ 62 := by rintro ⟨⟩ <;> decide
          obtain ⟨more, between, ordered⟩ := ih s' _ later fits (fun p plain => by
            have low := low p plain
            have grown := grown p
            have limit := limits p
            omega) others
          refine ⟨fun p => ?_, ?_, List.pairwise_cons.mpr ⟨fun b member same => ?_, ordered⟩⟩
          · have grown := grown p
            have more := more p
            omega
          · intro b member
            rcases List.mem_cons.mp member with rfl | member
            · exact { place with below := Nat.le_trans place.below (more _).1 }
            · exact { between b member with
                above := Nat.le_trans (grown _).1 (between b member).above }
          · have behind := (between b member).above
            rw [← same] at behind
            exact Nat.le_trans place.below behind

theorem init_pci_spec (buses : List (List (Request D))) : ∀ (n : Nat) (s : Bus D) (infos : List Businfo),
    n + buses.length ≤ 256 → Bounded n s.next → HasRoom buses s → initPci buses s = .ok infos →
    (∀ b ∈ infos, ∃ lo hi : Pool → BitVec 64, (∀ p ≠ .host, (s.next p).toNat ≤ (lo p).toNat ∧
        b.window p = ((lo p).toNat, (hi p).toNat)) ∧
        (∀ a ∈ b.bars, Between lo hi a) ∧ b.bars.Pairwise Before) ∧
      infos.Pairwise fun b c => ∀ p ≠ .host, (b.window p).2 ≤ (c.window p).1 := by
  induction buses with
  | nil =>
    intro n s infos _ _ _ ran
    cases ran
    exact ⟨fun _ => nofun, .nil⟩
  | cons requests rest ih =>
    intro n s infos few bounded kept ran
    unfold initPci at ran
    split at ran
    · cases ran
    · rename_i s' bars first
      split at ran
      · cases ran
      · rename_i others later
        cases ran
        rw [length_cons] at few
        obtain ⟨fits, rest_kept⟩ := kept
        obtain ⟨room, kept⟩ := rest_kept s' bars first
        obtain ⟨io, mem32, mem64⟩ := bounded
        obtain ⟨grown, between, ordered⟩ := init_devices_spec requests s s' bars fits (by
          intro p plain
          cases p with
          | io => omega
          | mem32 => omega
          | mem64 => omega
          | host => exact absurd rfl plain) first
        have most32 := (grown .mem32).2
        have most64 := (grown .mem64).2
        rw [show Pool.mem32.limit.toNat = 0xe0000000 from rfl] at most32
        rw [show Pool.mem64.limit.toNat = 0xfd00000000 from rfl] at most64
        obtain ⟨after, slop⟩ := @next_bus_bounded D s' n (by omega) room (by omega) (by omega)
        obtain ⟨windows, apart⟩ := ih (n + 1) (nextBus s') others (by omega) after kept later
        have exact_ := fun p (plain : p ≠ Pool.host) => @window_eq (n + 1) s.next (nextBus s').next
          (by omega) (bounded_more ⟨io, mem32, mem64⟩) after bars p plain
        refine ⟨?_, List.pairwise_cons.mpr ⟨?_, apart⟩⟩
        · intro b member
          rcases List.mem_cons.mp member with rfl | member
          · exact ⟨s.next, (nextBus s').next, fun p plain => ⟨Nat.le_refl _, exact_ p plain⟩,
              fun a inside => { between a inside with
                below := Nat.le_trans (between a inside).below (slop _ (between a inside).pool) }, ordered⟩
          · obtain ⟨lo, hi, window, inside⟩ := windows b member
            refine ⟨lo, hi, fun p plain => ⟨?_, (window p plain).2⟩, inside⟩
            exact Nat.le_trans (grown p).1 (Nat.le_trans (slop p plain) (window p plain).1)
        · intro c member p plain
          obtain ⟨lo, hi, window, -⟩ := windows c member
          rw [exact_ p plain, (window p plain).2]
          exact (window p plain).1

/-- What init_pci hands out is aligned, large enough and apart, and the windows hold it. -/
theorem allocated_of_room (m : Machine D) (room : HasRoom m.buses m.start) : Allocated m := by
  refine ⟨fun infos ran => ?_, fun s s' r none_left ran => alloc_failed none_left ran⟩
  have bounded : Bounded 0 m.start.next :=
    ⟨by rw [m.iobase]; decide, m.lowmem, by rw [m.membase64]; decide⟩
  obtain ⟨windows, order⟩ := init_pci_spec m.buses 0 m.start infos (by simpa using m.few) bounded room ran
  have sound : ∀ b ∈ infos, ∀ a ∈ b.bars, a.pool ≠ .host ∧ Sound m.start.next a ∧ b.Contains a := by
    intro b member a inside
    obtain ⟨lo, hi, window, between, -⟩ := windows b member
    obtain ⟨plain, aligned, large, above, below, limit⟩ := between a inside
    obtain ⟨start, exact_⟩ := window a.pool plain
    refine ⟨plain, ⟨aligned, large, Nat.le_trans start above, limit⟩, ?_⟩
    unfold Businfo.Contains
    rw [exact_]
    exact ⟨above, below⟩
  refine ⟨fun b member a inside => (sound b member a inside).2, ?_, ?_⟩
  · refine List.pairwise_flatMap.mpr ⟨fun b member => ?_, ?_⟩
    · obtain ⟨-, -, -, -, before⟩ := windows b member
      refine before.imp_of_mem fun {a c} inside inside' before => ?_
      obtain ⟨-, right, -⟩ := sound b member a inside
      obtain ⟨-, right', -⟩ := sound b member c inside'
      exact apart_of_order m.membase64 right right' before
    · refine order.imp_of_mem fun {b c} member member' before a inside a' inside' => ?_
      obtain ⟨plain, right, -, upper⟩ := sound b member a inside
      obtain ⟨-, right', lower, -⟩ := sound c member' a' inside'
      refine apart_of_order m.membase64 right right' fun same => ?_
      have between := before a.pool plain
      rw [← same] at lower
      omega
  · refine order.imp fun {b c} before pool => ?_
    by_cases plain : pool = .host
    · subst plain
      exact .inl (before .mem64 nofun)
    · exact .inl (before pool plain)

def oneRequest (r : Request Unit) (dev : Devinst) : Machine Unit where
  buses := [[r]]
  start :=
    { dev := fun _ => dev
      next := fun
        | .io => 0x2000
        | .mem32 => 0xc0000000
        | .mem64 => 0xd000000000
        | .host => 0
      registry := ⟨fun _ => none, []⟩ }
  few := by simp
  iobase := rfl
  lowmem := show (0xc0000000 : BitVec 64).toNat ≤ 0xe0000000 by decide
  membase64 := rfl

theorem ports_registered {ports : Nat → Option (Owner Unit)} (free : ∀ x, ports x = none) :
    ∃ registry, modifyBarRegistration () 0 ⟨.io, 0x8000, 0x8000⟩ true ⟨ports, []⟩ = some registry := by
  have inside : verifyIoport ((0x8000#64).setWidth 32).toInt ((0x8000#64).setWidth 32).toInt := by
    rw [show ((0x8000#64).setWidth 32).toInt = 32768 by decide]
    unfold verifyIoport maxIoports
    omega
  unfold modifyBarRegistration registerInout
  dsimp only
  rw [if_pos rfl, if_pos ⟨inside, fun _ _ => free _⟩]
  exact ⟨_, rfl⟩

theorem alloc_io {d : D} {idx : Nat} {size n addr : BitVec 64} {registry : Registry D}
    (inside : idx ≤ pciBarmax) (rounded : barSize .io size = n)
    (resource : pciEmulAllocResource (s.next .io) Pool.io.limit n = some addr)
    (registered : modifyBarRegistration d idx ⟨.io, n, addr⟩ true s.registry = some registry) :
    ∃ s', allocBar s ⟨d, idx, .io, size⟩ = .ok s' ∧ s'.next .io = addr + n := by
  have free : ¬ (pciBarmax < idx ∨ BarType.io = .none ∨ BarType.io = .memhi64) := by
    rintro (beyond | none_ | high)
    · exact Nat.not_lt.mpr inside beyond
    · cases none_
    · cases high
  unfold allocBar pciEmulAllocBar
  rw [if_neg free]
  dsimp only
  rw [rounded, show poolOf .io n = .io from rfl, if_neg nofun, resource]
  dsimp only
  rw [if_neg (fun both => nomatch both.1), registered]
  refine ⟨_, rfl, ?_⟩
  dsimp only
  rw [Function.update_self]

theorem init_one {a : Allotted} (alloc : allocBar s r = .ok s') (found : allotted s r = some a) :
    initPci [[r]] s = .ok [businfo s.next (nextBus s').next [a]] := by
  simp [initPci, initDevices, alloc, found]

theorem window_wraps : ¬ Allocated (oneRequest ⟨(), 0, .io, 0x8000⟩ (.fresh fun _ => 0)) ∧
    ¬ Allocated (oneRequest ⟨(), 0, .mem64, 0x100000000⟩ (.fresh fun _ => 0)) := by
  constructor
  · intro right
    obtain ⟨registry, registered⟩ := @ports_registered (fun _ => none) fun _ => rfl
    obtain ⟨s', alloc, limit⟩ := @alloc_io Unit _
      (oneRequest ⟨(), 0, .io, 0x8000⟩ (.fresh fun _ => 0)).start () 0 0x8000 _ _ registry (by decide)
      rfl rfl registered
    have inside := ((right.placed _ (@init_one Unit _ _ s' _ ⟨0x8000, .io, 0x8000, 0x8000⟩ alloc rfl)).1 _
      mem_cons_self _ mem_cons_self).2.2
    change (0x8000#64).toNat + (0x8000#64).toNat ≤
      ((roundup2 (s'.next .io + 32) 32).setWidth 16).toNat at inside
    rw [limit] at inside
    exact absurd inside (by decide)
  · intro right
    have sound := ((right.placed _ rfl).1 _ mem_cons_self _ mem_cons_self).1
    exact absurd sound.above (by decide)

instance (r : Request D) : Decidable (Fits r) := inferInstanceAs (Decidable (_ ∧ _))

def firstBus : List (Request Nat) :=
  [⟨0, 0, .io, 4⟩, ⟨0, 1, .mem32, 0x1000⟩, ⟨0, 2, .mem64, 0x4000000⟩, ⟨1, 0, .io, 32⟩,
    ⟨1, 1, .mem64, 0x5000000⟩]

def secondBus : List (Request Nat) :=
  [⟨2, 0, .mem32, 20⟩, ⟨2, 1, .io, 8⟩, ⟨3, 0, .mem32, 0x2000⟩, ⟨3, 1, .mem64, 0x4000000⟩]

def twoBuses : Machine Nat where
  buses := [firstBus, secondBus]
  start :=
    { dev := fun _ => .fresh fun _ => 0
      next := fun
        | .io => 0x2000
        | .mem32 => 0xc0000000
        | .mem64 => 0xd000000000
        | .host => 0
      registry := ⟨fun _ => none, []⟩ }
  few := by decide
  iobase := rfl
  lowmem := show (0xc0000000 : BitVec 64).toNat ≤ 0xe0000000 by decide
  membase64 := rfl

theorem allocated_two_buses : Allocated twoBuses ∧ (initPci twoBuses.buses twoBuses.start).toOption.map
        (fun infos => infos.map fun b => b.bars.map fun a => (a.pool, a.bar.addr)) =
      some [[(.io, 0x2000), (.mem32, 0xc0000000), (.mem64, 0xd000000000), (.io, 0x2020),
          (.mem64, 0xd008000000)],
        [(.mem32, 0xc0200000), (.io, 0x2060), (.mem32, 0xc0202000), (.mem64, 0xd014000000)]] := by
  have fits : (∀ r ∈ firstBus, Fits r) ∧ ∀ r ∈ secondBus, Fits r := by decide
  have ends : (initDevices firstBus twoBuses.start).toOption.all (fun p =>
      decide ((p.1.next .io).toNat ≤ 0xffc0) &&
        (initDevices secondBus (nextBus p.1)).toOption.all fun q =>
          decide ((q.1.next .io).toNat ≤ 0xffc0)) = true := by
    decide
  refine ⟨allocated_of_room _ ⟨fits.1, fun s bars ran => ?_⟩, by decide⟩
  rw [show initDevices firstBus twoBuses.start = .ok (s, bars) from ran] at ends
  obtain ⟨room, next⟩ := (Bool.and_eq_true_iff).mp ends
  refine ⟨of_decide_eq_true room, fits.2, fun s' bars' ran' => ?_⟩
  rw [ran'] at next
  exact ⟨of_decide_eq_true next, trivial⟩

end
end PciWindows
