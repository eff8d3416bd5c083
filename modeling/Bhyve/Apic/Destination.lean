import Mathlib.Data.List.Basic

/-!
The vcpus an interrupt message goes to. A cpuset that the code builds is kept as the list of
its members from the lowest one up, the order in which CPU_FFS takes them out. A vcpu id that
is negative is no index of a cpuset: the look at it is outside the set, and there is no result.
-/
namespace Apic
open List BitVec

structure Lapic where
  ldr : BitVec 32
  dfr : BitVec 32
  x2apic : Bool

/-- Only a vcpu below maxcpus can be activated. -/
structure Vm where
  maxcpus : Nat
  active : Nat → Bool
  lapic : Nat → Lapic
  inside : ∀ vcpuid, active vcpuid = true → vcpuid < maxcpus

def apicDfrModelMask : BitVec 32 := 0xf0000000
def apicDfrModelFlat : BitVec 32 := 0xf0000000
def apicDfrModelCluster : BitVec 32 := 0x00000000

def ioartDelMode : BitVec 32 := 0x700
def ioartDelFixed : BitVec 32 := 0x000
def ioartDelLoPri : BitVec 32 := 0x100
def ioartDelExInt : BitVec 32 := 0x700

def Vm.activeCpus (vm : Vm) : List Nat := (List.range vm.maxcpus).filter vm.active

/-- APIC ids are the numbers of the vcpus, as a C int. -/
def vmApicid2vcpuid (apicid : BitVec 32) : Int := apicid.toInt

def isBroadcast (dest : BitVec 32) (x2apicDest : Bool) : Bool :=
  if x2apicDest then dest = 0xffffffff else dest = 0xff

def logicalMatch (l : Lapic) (dest : BitVec 32) (x2apicDest : Bool) : Bool :=
  let mdaFlatLdest := dest &&& 0xff
  let mdaClusterId := if x2apicDest then dest >>> 16 else (dest >>> 4) &&& 0xf
  let mdaClusterLdest := if x2apicDest then dest &&& 0xffff else dest &&& 0xf
  if l.dfr &&& apicDfrModelMask = apicDfrModelFlat then
    decide (mdaFlatLdest &&& (l.ldr >>> 24) ≠ 0)
  else if l.dfr &&& apicDfrModelMask = apicDfrModelCluster then
    let cluster := if l.x2apic then l.ldr >>> 16 else l.ldr >>> 28
    let ldest := if l.x2apic then l.ldr &&& 0xffff else (l.ldr >>> 24) &&& 0xf
    if cluster ≠ mdaClusterId then false else decide (mdaClusterLdest &&& ldest ≠ 0)
  else false

def logicalDest (vm : Vm) (dest : BitVec 32) (lowprio x2apicDest : Bool) : List Nat → List Nat
  | [] => []
  | vcpuid :: amask =>
      if logicalMatch (vm.lapic vcpuid) dest x2apicDest then
        if lowprio then [vcpuid] else vcpuid :: logicalDest vm dest lowprio x2apicDest amask
      else logicalDest vm dest lowprio x2apicDest amask

variable (vm : Vm)

def physicalDest (dest : BitVec 32) : Option (List Nat) :=
  let vcpuid := vmApicid2vcpuid dest
  if vcpuid < vm.maxcpus then
    if vcpuid < 0 then none
    else if vm.active vcpuid.toNat then some [vcpuid.toNat]
    else some []
  else some []

def vlapicCalcdest (dest : BitVec 32) (phys lowprio x2apicDest : Bool) : Option (List Nat) :=
  if isBroadcast dest x2apicDest then some vm.activeCpus
  else if phys then physicalDest vm dest
  else some (logicalDest vm dest lowprio x2apicDest vm.activeCpus)

inductive Delivery where
  | extint (vcpuid : Nat)
  | intr (vcpuid : Nat) (vec : BitVec 32) (level : Bool)
deriving DecidableEq

def vlapicDeliverIntr (level : Bool) (dest : BitVec 32) (phys : Bool)
    (delmode vec : BitVec 32) : Option (List Delivery) :=
  if delmode ≠ ioartDelFixed ∧ delmode ≠ ioartDelLoPri ∧ delmode ≠ ioartDelExInt then some []
  else
    (vlapicCalcdest vm dest phys (decide (delmode = ioartDelLoPri)) false).map fun dmask =>
      dmask.map fun vcpuid =>
        if delmode = ioartDelExInt then .extint vcpuid else .intr vcpuid vec level

/-- How a local APIC is addressed in logical mode: by its bit among eight, or by its cluster
    and its bit within that. -/
inductive LogicalId where
  | flat (members : BitVec 8)
  | cluster (id members : BitVec 16)
  | bad

/-- The cluster and the member bits that an LDR stands for. -/
def ldrCluster (ldr : BitVec 32) (x2apic : Bool) : BitVec 16 × BitVec 16 :=
  if x2apic then (ldr.extractLsb' 16 16, ldr.extractLsb' 0 16)
  else ((ldr.extractLsb' 28 4).setWidth 16, (ldr.extractLsb' 24 4).setWidth 16)

def Lapic.logicalId (l : Lapic) : LogicalId :=
  if l.dfr.extractLsb' 28 4 = 0xf then .flat (l.ldr.extractLsb' 24 8)
  else if l.dfr.extractLsb' 28 4 = 0 then
    .cluster (ldrCluster l.ldr l.x2apic).1 (ldrCluster l.ldr l.x2apic).2
  else .bad

def mdaCluster (dest : BitVec 32) (x2apicDest : Bool) : BitVec 16 × BitVec 16 :=
  if x2apicDest then (dest.extractLsb' 16 16, dest.extractLsb' 0 16)
  else ((dest.extractLsb' 4 4).setWidth 16, (dest.extractLsb' 0 4).setWidth 16)

def LogicalId.Matches (dest : BitVec 32) (x2apicDest : Bool) : LogicalId → Prop
  | .flat members => members &&& dest.extractLsb' 0 8 ≠ 0
  | .cluster id members =>
      id = (mdaCluster dest x2apicDest).1 ∧ members &&& (mdaCluster dest x2apicDest).2 ≠ 0
  | .bad => False

theorem field_eq (x : BitVec 32) (o n : Nat) {mask : BitVec 32}
    (low : ∀ i < 32, mask.getLsbD i = decide (i < n)) :
    (x >>> o) &&& mask = (x.extractLsb' o n).setWidth 32 := by
  apply eq_of_getLsbD_eq
  intro i below
  simp only [getLsbD_and, getLsbD_ushiftRight, low i below, getLsbD_setWidth,
    getLsbD_extractLsb', below, decide_true, Bool.true_and]
  exact Bool.and_comm ..

variable {n : Nat} {dest : BitVec 32} {x2apicDest : Bool}

theorem top_field_eq (x : BitVec 32) {o : Nat} (top : o + n = 32) :
    x >>> o = (x.extractLsb' o n).setWidth 32 := by
  apply eq_of_getLsbD_eq
  intro i below
  simp only [getLsbD_ushiftRight, getLsbD_setWidth, getLsbD_extractLsb', below,
    decide_true, Bool.true_and]
  by_cases inside : i < n
  · rw [decide_eq_true inside, Bool.true_and]
  · rw [decide_eq_false inside, Bool.false_and]
    exact getLsbD_of_ge x (o + i) (by omega)

theorem low_field_eq (x : BitVec 32) (n : Nat) {mask : BitVec 32}
    (low : ∀ i < 32, mask.getLsbD i = decide (i < n)) :
    x &&& mask = (x.extractLsb' 0 n).setWidth 32 := by
  have shifted := field_eq x 0 n low
  rwa [ushiftRight_zero] at shifted

theorem widened_eq (short : n ≤ 32) (a b : BitVec n) : a.setWidth 32 = b.setWidth 32 ↔ a = b := by
  constructor
  · intro same
    have narrowed := congrArg (BitVec.setWidth n) same
    rwa [setWidth_setWidth_of_le _ short, setWidth_setWidth_of_le _ short,
      setWidth_eq, setWidth_eq] at narrowed
  · rintro rfl
    rfl

theorem widened_overlap (short : n ≤ 32) (a b : BitVec n) :
    a.setWidth 32 &&& b.setWidth 32 ≠ 0 ↔ b &&& a ≠ 0 := by
  rw [← setWidth_and, BitVec.and_comm, ne_eq, ne_eq, not_iff_not]
  have zero : (0 : BitVec 32) = (0 : BitVec n).setWidth 32 := (setWidth_zero ..).symm
  rw [zero]
  exact widened_eq short ..

theorem dfr_model (dfr : BitVec 32) :
    (dfr &&& apicDfrModelMask = apicDfrModelFlat ↔ dfr.extractLsb' 28 4 = 0xf) ∧
      (dfr &&& apicDfrModelMask = apicDfrModelCluster ↔ dfr.extractLsb' 28 4 = 0) := by
  have mask : ∀ i < 32, apicDfrModelMask.getLsbD i = decide (28 ≤ i) := by decide
  have shifted : dfr &&& apicDfrModelMask = (dfr.extractLsb' 28 4).setWidth 32 <<< 28 := by
    apply eq_of_getLsbD_eq
    intro i below
    rw [getLsbD_and, mask i below, getLsbD_shiftLeft, getLsbD_setWidth,
      getLsbD_extractLsb']
    by_cases high : 28 ≤ i
    · rw [decide_eq_true high, decide_eq_true below, decide_eq_false (by omega),
        decide_eq_true (by omega : i - 28 < 32), decide_eq_true (by omega : i - 28 < 4),
        Nat.add_sub_cancel' high, Bool.and_true, Bool.not_false, Bool.true_and, Bool.true_and,
        Bool.true_and, Bool.true_and]
    · rw [decide_eq_false high, decide_eq_true (by omega : i < 28), Bool.and_false, Bool.not_true,
        Bool.and_false, Bool.false_and]
  have all : ∀ f : BitVec 4, (f.setWidth 32 <<< 28 = apicDfrModelFlat ↔ f = 0xf) ∧
      (f.setWidth 32 <<< 28 = apicDfrModelCluster ↔ f = 0) := by decide
  rw [shifted]
  exact all _

theorem nibble_widened (nibble : BitVec 4) :
    (nibble.setWidth 16).setWidth 32 = nibble.setWidth 32 :=
  setWidth_setWidth (by omega)

theorem mda_fields (dest : BitVec 32) (x2apicDest : Bool) :
    (if x2apicDest then dest >>> 16 else (dest >>> 4) &&& 0xf) =
        (mdaCluster dest x2apicDest).1.setWidth 32 ∧
      (if x2apicDest then dest &&& 0xffff else dest &&& 0xf) =
        (mdaCluster dest x2apicDest).2.setWidth 32 := by
  cases x2apicDest with
  | true => exact ⟨top_field_eq dest (by decide), low_field_eq dest 16 (by decide)⟩
  | false =>
    exact ⟨field_eq dest 4 4 (by decide), low_field_eq dest 4 (by decide)⟩

theorem ldr_fields (ldr : BitVec 32) (x2apic : Bool) :
    (if x2apic then ldr >>> 16 else ldr >>> 28) = (ldrCluster ldr x2apic).1.setWidth 32 ∧
      (if x2apic then ldr &&& 0xffff else (ldr >>> 24) &&& 0xf) =
        (ldrCluster ldr x2apic).2.setWidth 32 := by
  cases x2apic with
  | true => exact ⟨top_field_eq ldr (by decide), low_field_eq ldr 16 (by decide)⟩
  | false =>
    simp only [Bool.false_eq_true, ↓reduceIte, ldrCluster, nibble_widened]
    exact ⟨top_field_eq ldr (by decide), field_eq ldr 24 4 (by decide)⟩

theorem logical_match_iff (l : Lapic) (dest : BitVec 32) (x2apicDest : Bool) :
    logicalMatch l dest x2apicDest = true ↔ l.logicalId.Matches dest x2apicDest := by
  obtain ⟨flat, cluster⟩ := dfr_model l.dfr
  obtain ⟨mdaId, mdaMembers⟩ := mda_fields dest x2apicDest
  obtain ⟨id, members⟩ := ldr_fields l.ldr l.x2apic
  unfold logicalMatch Lapic.logicalId
  simp only [flat, cluster, mdaId, mdaMembers, id, members]
  split
  · rw [decide_eq_true_eq, low_field_eq dest 8 (by decide),
      top_field_eq l.ldr (by decide : 24 + 8 = 32)]
    exact widened_overlap (by decide) ..
  · split
    · have ids := widened_eq (by decide : 16 ≤ 32) (ldrCluster l.ldr l.x2apic).1
        (mdaCluster dest x2apicDest).1
      by_cases same : (ldrCluster l.ldr l.x2apic).1 = (mdaCluster dest x2apicDest).1
      · rw [if_neg (not_not_intro (ids.mpr same)), decide_eq_true_eq, widened_overlap (by decide)]
        exact ⟨fun overlap => ⟨same, overlap⟩, fun both => both.2⟩
      · rw [if_pos (fun widened => same (ids.mp widened))]
        exact ⟨nofun, fun both => absurd both.1 same⟩
    · exact ⟨nofun, fun never => never.elim⟩

/-- The active vcpus that a destination names; the one of all bits names every vcpu. -/
def Vm.Addressed (dest : BitVec 32) (phys x2apicDest : Bool) (vcpuid : Nat) : Prop :=
  vm.active vcpuid = true ∧ (isBroadcast dest x2apicDest = true ∨
    if phys then vcpuid = dest.toNat else (vm.lapic vcpuid).logicalId.Matches dest x2apicDest)

/-- Of a lowest-priority message in logical mode one of the vcpus it names is chosen. -/
structure Vm.Resolved (vm : Vm) (dest : BitVec 32) (phys lowprio x2apicDest : Bool)
    (dmask : List Nat) : Prop where
  active : ∀ vcpuid ∈ dmask, vm.active vcpuid = true
  addressed : ∀ vcpuid ∈ dmask, vm.Addressed dest phys x2apicDest vcpuid
  whole : phys = true ∨ lowprio = false →
    ∀ vcpuid, vm.Addressed dest phys x2apicDest vcpuid → vcpuid ∈ dmask
  chosen : (∃ vcpuid, vm.Addressed dest phys x2apicDest vcpuid) → dmask ≠ []
  single : lowprio = true → dmask.length ≤ 1

theorem mem_active_cpus (vcpuid : Nat) : vcpuid ∈ vm.activeCpus ↔ vm.active vcpuid = true := by
  rw [Vm.activeCpus, mem_filter, mem_range]
  exact ⟨fun both => both.2, fun active => ⟨vm.inside vcpuid active, active⟩⟩

theorem logical_dest_eq (dest : BitVec 32) (lowprio x2apicDest : Bool) (amask : List Nat) :
    logicalDest vm dest lowprio x2apicDest amask =
      if lowprio then
        (amask.find? fun vcpuid => logicalMatch (vm.lapic vcpuid) dest x2apicDest).toList
      else amask.filter fun vcpuid => logicalMatch (vm.lapic vcpuid) dest x2apicDest := by
  induction amask with
  | nil => cases lowprio <;> rfl
  | cons vcpuid rest ih =>
    rw [logicalDest, ih, find?_cons, filter_cons]
    cases logicalMatch (vm.lapic vcpuid) dest x2apicDest <;> cases lowprio <;> rfl

theorem physical_dest_eq (short : dest.toNat < 2147483648) :
    physicalDest vm dest = some (if vm.active dest.toNat then [dest.toNat] else []) := by
  have id : vmApicid2vcpuid dest = dest.toNat := by
    rw [vmApicid2vcpuid, toInt_eq_toNat_of_lt (by omega)]
  unfold physicalDest
  simp only [id, Int.ofNat_lt, Int.toNat_natCast]
  rw [if_neg (by omega : ¬ (dest.toNat : Int) < 0)]
  by_cases active : vm.active dest.toNat = true
  · rw [if_pos (vm.inside _ active), if_pos active, if_pos active]
  · split <;> rfl

theorem physical_dest_outside (high : 2147483648 ≤ dest.toNat) : physicalDest vm dest = none := by
  have id : vmApicid2vcpuid dest < 0 := by
    rw [vmApicid2vcpuid, toInt_eq_toNat_cond, if_neg (by omega)]
    omega
  unfold physicalDest
  simp only
  rw [if_pos (by omega), if_pos id]

theorem broadcast_resolved_iff (phys lowprio : Bool) (all : isBroadcast dest x2apicDest = true) :
    vm.Resolved dest phys lowprio x2apicDest vm.activeCpus ↔
      ¬ (lowprio = true ∧ 2 ≤ vm.activeCpus.length) := by
  constructor
  · rintro resolved ⟨lowest, two⟩
    have one := resolved.single lowest
    omega
  · intro few
    exact {
      active := fun vcpuid member => (mem_active_cpus vm vcpuid).mp member
      addressed := fun vcpuid member => ⟨(mem_active_cpus vm vcpuid).mp member, .inl all⟩
      whole := fun _ vcpuid named => (mem_active_cpus vm vcpuid).mpr named.1
      chosen := fun ⟨vcpuid, named⟩ =>
        ne_nil_of_mem ((mem_active_cpus vm vcpuid).mpr named.1)
      single := fun lowest => by
        by_cases two : 2 ≤ vm.activeCpus.length
        · exact absurd ⟨lowest, two⟩ few
        · omega }

theorem physical_resolved (lowprio : Bool) (one : isBroadcast dest x2apicDest = false) :
    vm.Resolved dest true lowprio x2apicDest
      (if vm.active dest.toNat then [dest.toNat] else []) := by
  have named (vcpuid : Nat) : vm.Addressed dest true x2apicDest vcpuid ↔
      vcpuid ∈ if vm.active dest.toNat then [dest.toNat] else [] := by
    rw [Vm.Addressed, one, if_pos rfl]
    by_cases active : vm.active dest.toNat = true
    · rw [if_pos active, mem_singleton]
      constructor
      · rintro ⟨-, never | same⟩
        · cases never
        · exact same
      · rintro rfl
        exact ⟨active, .inr rfl⟩
    · rw [if_neg active]
      constructor
      · rintro ⟨here, never | rfl⟩
        · cases never
        · exact absurd here active
      · intro never
        cases never
  exact {
    active := fun vcpuid member => ((named vcpuid).mpr member).1
    addressed := fun vcpuid member => (named vcpuid).mpr member
    whole := fun _ vcpuid => (named vcpuid).mp
    chosen := fun ⟨vcpuid, addressed⟩ => ne_nil_of_mem ((named vcpuid).mp addressed)
    single := fun _ => by split <;> simp only [length_singleton, length_nil, Nat.le_refl,
      Nat.zero_le] }

theorem logical_resolved (lowprio : Bool) (one : isBroadcast dest x2apicDest = false) :
    vm.Resolved dest false lowprio x2apicDest
      (logicalDest vm dest lowprio x2apicDest vm.activeCpus) := by
  have named (vcpuid : Nat) : vm.Addressed dest false x2apicDest vcpuid ↔
      vcpuid ∈ vm.activeCpus ∧ logicalMatch (vm.lapic vcpuid) dest x2apicDest = true := by
    rw [Vm.Addressed, one, mem_active_cpus, logical_match_iff]
    simp only [Bool.false_eq_true, false_or, ↓reduceIte]
  have listed : ∀ vcpuid ∈ logicalDest vm dest lowprio x2apicDest vm.activeCpus,
      vm.Addressed dest false x2apicDest vcpuid := by
    intro vcpuid member
    rw [logical_dest_eq] at member
    rw [named]
    cases lowprio with
    | false => exact List.mem_filter.mp member
    | true =>
      have found := Option.mem_toList.mp member
      have matched := find?_some found
      exact ⟨mem_of_find?_eq_some found, matched⟩
  exact {
    active := fun vcpuid member => (listed vcpuid member).1
    addressed := listed
    whole := by
      rintro (never | rfl) vcpuid addressed
      · cases never
      · rw [logical_dest_eq]
        exact List.mem_filter.mpr ((named vcpuid).mp addressed)
    chosen := by
      rintro ⟨vcpuid, addressed⟩ empty
      obtain ⟨member, matched⟩ := (named vcpuid).mp addressed
      rw [logical_dest_eq] at empty
      cases lowprio with
      | false => exact absurd (List.mem_filter.mpr ⟨member, matched⟩) (empty ▸ not_mem_nil)
      | true =>
        have none := Option.toList_eq_nil_iff.mp empty
        exact List.find?_eq_none.mp none vcpuid member matched
    single := by
      rintro rfl
      rw [logical_dest_eq, if_pos rfl]
      cases vm.activeCpus.find? _ <;> exact Nat.le_of_ble_eq_true rfl }

theorem calcdest_active {vm : Vm} {phys lowprio : Bool} {dmask : List Nat}
    (resolves : vlapicCalcdest vm dest phys lowprio x2apicDest = some dmask) :
    ∀ vcpuid ∈ dmask, vm.active vcpuid = true := by
  unfold vlapicCalcdest at resolves
  cases all : isBroadcast dest x2apicDest with
  | true =>
    rw [all, if_pos rfl] at resolves
    obtain rfl := Option.some.inj resolves
    exact fun vcpuid => (mem_active_cpus vm vcpuid).mp
  | false =>
    rw [all, if_neg Bool.false_ne_true] at resolves
    cases phys with
    | false =>
      obtain rfl := Option.some.inj resolves
      exact (logical_resolved vm lowprio all).active
    | true =>
      by_cases short : dest.toNat < 2147483648
      · rw [if_pos rfl, physical_dest_eq vm short] at resolves
        obtain rfl := Option.some.inj resolves
        exact (physical_resolved vm lowprio all).active
      · rw [if_pos rfl, physical_dest_outside vm (Nat.le_of_not_lt short)] at resolves
        cases resolves

theorem lowest_priority_delivery (level : Bool) (dest : BitVec 32) (phys : Bool) (vec : BitVec 32) :
    vlapicDeliverIntr vm level dest phys ioartDelLoPri vec =
      (vlapicCalcdest vm dest phys true false).map fun dmask =>
        dmask.map fun vcpuid => .intr vcpuid vec level := by
  rfl

/-- There is a cpuset, it is the one the destination names, and a lowest-priority message from
    an I/O APIC or an MSI to this destination is one interrupt at most. -/
def Vm.Resolves (dest : BitVec 32) (phys lowprio x2apicDest : Bool) : Prop :=
  ∃ dmask, vlapicCalcdest vm dest phys lowprio x2apicDest = some dmask ∧
    vm.Resolved dest phys lowprio x2apicDest dmask ∧
    (lowprio = true → x2apicDest = false → ∀ level vec, ∃ sent,
      vlapicDeliverIntr vm level dest phys ioartDelLoPri vec = some sent ∧ sent.length ≤ 1)

/-- A single message goes where it is addressed unless it asks for the lowest priority among
    all vcpus, or names by its number a vcpu beyond the range of an int. -/
theorem destination_resolved_iff (vm : Vm) (dest : BitVec 32) (phys lowprio x2apicDest : Bool) :
    vm.Resolves dest phys lowprio x2apicDest ↔
      ¬ (isBroadcast dest x2apicDest = true ∧ lowprio = true ∧ 2 ≤ vm.activeCpus.length) ∧
        ¬ (isBroadcast dest x2apicDest = false ∧ phys = true ∧ 2147483648 ≤ dest.toNat) := by
  have reduced : vm.Resolves dest phys lowprio x2apicDest ↔
      ∃ dmask, vlapicCalcdest vm dest phys lowprio x2apicDest = some dmask ∧
        vm.Resolved dest phys lowprio x2apicDest dmask := by
    constructor
    · rintro ⟨dmask, resolves, resolved, -⟩
      exact ⟨dmask, resolves, resolved⟩
    · rintro ⟨dmask, resolves, resolved⟩
      refine ⟨dmask, resolves, resolved, ?_⟩
      rintro rfl rfl level vec
      refine ⟨dmask.map fun vcpuid => .intr vcpuid vec level, ?_, ?_⟩
      · rw [lowest_priority_delivery, resolves, Option.map_some]
      · rw [length_map]
        exact resolved.single rfl
  rw [reduced]
  unfold vlapicCalcdest
  cases all : isBroadcast dest x2apicDest with
  | true =>
    simp only [if_true, Option.some.injEq, exists_eq_left', broadcast_resolved_iff vm phys lowprio all]
    simp
  | false =>
    cases phys with
    | false =>
      simp only [Bool.false_eq_true, if_false, Option.some.injEq, exists_eq_left',
        logical_resolved vm lowprio all]
      simp
    | true =>
      by_cases short : dest.toNat < 2147483648
      · simp only [Bool.false_eq_true, if_false, if_true, physical_dest_eq vm short,
          Option.some.injEq, exists_eq_left', physical_resolved vm lowprio all]
        simp [short]
      · simp only [Bool.false_eq_true, if_false, if_true,
          physical_dest_outside vm (Nat.le_of_not_lt short)]
        simp [Nat.le_of_not_lt short]

def twoVcpus : Vm where
  maxcpus := 2
  active := fun vcpuid => decide (vcpuid < 2)
  lapic := fun _ => ⟨0, 0xffffffff, false⟩
  inside := fun _ active => of_decide_eq_true active

theorem broadcast_delivered_twice :
    ¬ ∀ (vm : Vm) (dest : BitVec 32) (phys lowprio x2apicDest : Bool),
        vm.Resolves dest phys lowprio x2apicDest := by
  intro every
  obtain ⟨dmask, resolves, resolved, -⟩ := every twoVcpus 0xff false true false
  have both : vlapicCalcdest twoVcpus 0xff false true false = some [0, 1] := by decide
  rw [both, Option.some.injEq] at resolves
  have one := resolved.single rfl
  rw [← resolves] at one
  exact absurd one (by decide)

end Apic
